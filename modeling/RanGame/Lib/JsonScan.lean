import RanGame.Lib.Json

/-!
# JSON text inside other text

The scanner of a value never looks beyond its end, but for one byte after a number. So a text that
is one value is one value wherever it stands, provided that what follows cannot go on with a number.
-/

namespace RanGame.Json

open List Option

/-! ### Strings

Only a character or a pair of escapes that is cut off by the end of the text could change; a string
with a closing quote is not cut off. -/

variable {lo hi b : UInt8} {n fuel : ℕ} {bs s rest c r t : Bytes} {p : Bytes × Bytes}

theorem tails_append (h : n ≤ bs.length) (t : Bytes) :
    tails lo hi n (bs ++ t) = tails lo hi n bs := by
  induction n generalizing lo hi bs with
  | zero => rfl
  | succ n ih =>
    cases bs with
    | nil => cases h
    | cons b bs => rw [cons_append, tails, tails, ih (Nat.le_of_succ_le_succ h)]

theorem le_of_tails (hlo : 0x80 ≤ lo) (h : tails lo hi n bs = true) :
    ∀ b ∈ bs.take n, 0x80 ≤ b := by
  induction n generalizing lo hi bs with
  | zero => simp
  | succ n ih =>
    cases bs with
    | nil => cases h
    | cons b bs =>
      simp only [tails, Bool.and_eq_true, decide_eq_true_eq] at h
      rw [take_succ_cons]
      exact forall_mem_cons.mpr ⟨UInt8.le_trans hlo h.1.1, ih (by decide) h.2⟩

theorem le_of_tailsOf {a : UInt8} (h : tailsOf a = some (lo, hi, n)) : 0x80 ≤ lo := by
  rw [tailsOf] at h
  repeat' split at h
  all_goals cases h
  all_goals decide

theorem le_of_runeTail (h : runeTail b bs = some n) : ∀ c ∈ bs.take n, 0x80 ≤ c := by
  rw [runeTail] at h
  split at h
  · cases h
  next lo hi k htails =>
    obtain ⟨hk, ⟨⟩⟩ := ite_none_right_eq_some.mp h
    exact le_of_tails (le_of_tailsOf htails) hk

theorem runeTail_append (h : 34 ∈ bs) (t : Bytes) : runeTail b (bs ++ t) = runeTail b bs := by
  rw [runeTail, runeTail]
  cases htails : tailsOf b with
  | none => rfl
  | some p =>
    obtain ⟨lo, hi, n⟩ := p
    have hlo := le_of_tailsOf htails
    by_cases hn : n ≤ bs.length
    · simp only [tails_append hn]
    · have hshort : tails lo hi n bs = false :=
        Bool.eq_false_iff.mpr fun htrue => hn (length_of_tails htrue)
      have hlong : tails lo hi n (bs ++ t) = false := by
        refine Bool.eq_false_iff.mpr fun htrue => ?_
        have hmem : (34 : UInt8) ∈ (bs ++ t).take n := by
          rw [take_append, take_of_length_le (by omega)]
          exact mem_append_left _ h
        exact absurd (le_of_tails hlo htrue 34 hmem) (by decide)
      simp only [hshort, hlong]

theorem getu4_eq_some {r : ℕ} (h : getu4 s = some (r, rest)) :
    ∃ u, s = u ++ rest ∧ ∀ t, getu4 (u ++ t) = some (r, t) := by
  rw [getu4.eq_def] at h
  split at h
  next a b c d u =>
    split at h <;> cases h
    next ha hb hc hd =>
      refine ⟨[a, b, c, d], rfl, fun t => ?_⟩
      simp only [cons_append, nil_append, getu4, ha, hb, hc, hd]
  · cases h

theorem lowSurrogate_eq_some {r : ℕ} (h : lowSurrogate s = some (r, rest)) :
    ∃ u, s = u ++ rest ∧ ∀ t, lowSurrogate (u ++ t) = some (r, t) := by
  rw [lowSurrogate.eq_def] at h
  split at h
  · split at h
    next r' u' hget =>
      obtain ⟨u, rfl, hread⟩ := getu4_eq_some hget
      obtain ⟨hrange, ⟨⟩⟩ := ite_none_right_eq_some.mp h
      refine ⟨92 :: 117 :: u, rfl, fun t => ?_⟩
      simp only [cons_append, lowSurrogate, hread, if_pos hrange]
    · cases h
  · cases h

theorem suffix_of_unescapeRune (h : unescapeRune s = some (c, rest)) : rest <:+ s := by
  rw [unescapeRune] at h
  split at h
  · cases h
  next r u hget =>
    have hu : u <:+ s := by
      obtain ⟨v, rfl, -⟩ := getu4_eq_some hget
      exact suffix_append v u
    split at h
    · split at h
      next r' u' hlow =>
        obtain ⟨-, rfl⟩ := Prod.mk.inj (some.inj h)
        obtain ⟨v, rfl, -⟩ := lowSurrogate_eq_some (ite_none_right_eq_some.mp hlow).2
        exact (suffix_append v u').trans hu
      · cases h
        exact hu
    · cases h
      exact hu

/-- The branches of `unquoteStep`. -/
inductive Reads (b : UInt8) : Bytes → Option Bytes → Bytes → Prop
  | close {bs : Bytes} (hb : b = 34) : Reads b bs none bs
  | rune {bs c rest : Bytes} (hb : b = 92) (hc : unescapeRune bs = some (c, rest)) :
    Reads b (117 :: bs) (some c) rest
  | escape {c d : UInt8} {bs : Bytes} (hb : b = 92) (hc : c ≠ 117) (hd : unescape c = some d) :
    Reads b (c :: bs) (some [d]) bs
  | replace {bs : Bytes} (hquote : b ≠ 34) (hescape : b ≠ 92) (hcontrol : ¬ b < 0x20)
    (htail : runeTail b bs = none) : Reads b bs (some replacement) bs
  | keep {bs : Bytes} {n : ℕ} (hquote : b ≠ 34) (hescape : b ≠ 92) (hcontrol : ¬ b < 0x20)
    (htail : runeTail b bs = some n) : Reads b bs (some (b :: bs.take n)) (bs.drop n)

theorem unquoteStep_eq_some {c : Option Bytes} :
    unquoteStep b bs = some (c, rest) ↔ Reads b bs c rest := by
  constructor
  · intro h
    rw [unquoteStep.eq_def] at h
    split at h
    next hb =>
      cases h
      exact .close hb
    next h34 =>
      split at h
      next h92 =>
        cases bs with
        | nil => cases h
        | cons d u =>
          dsimp only at h
          split at h
          next hd =>
            obtain ⟨⟨e, u'⟩, hrune, hp⟩ := map_eq_some_iff.mp h
            cases hp
            subst hd
            exact .rune h92 hrune
          next hd =>
            obtain ⟨e, he, hp⟩ := map_eq_some_iff.mp h
            cases hp
            exact .escape h92 hd he
      next h92 =>
        obtain ⟨h20, h⟩ := ite_none_left_eq_some.mp h
        split at h <;> cases h
        next htail => exact .replace h34 h92 h20 htail
        next n htail => exact .keep h34 h92 h20 htail
  · intro h
    cases h with
    | close hb => rw [unquoteStep.eq_def, if_pos hb]
    | rune hb hc =>
      subst hb
      rw [unquoteStep.eq_def, if_neg (by decide), if_pos rfl]
      simp only [if_true, hc, map_some]
    | escape hb hc hd =>
      subst hb
      rw [unquoteStep.eq_def, if_neg (by decide), if_pos rfl]
      simp only [hc, if_false, hd, map_some]
    | replace h34 h92 h20 htail | keep h34 h92 h20 htail =>
      rw [unquoteStep.eq_def, if_neg h34, if_neg h92, if_neg h20, htail]

theorem Reads.suffix {c : Option Bytes} (h : Reads b bs c rest) : rest <:+ bs := by
  cases h with
  | close | replace => exact suffix_refl _
  | rune hb hc => exact (suffix_of_unescapeRune hc).trans (suffix_cons ..)
  | escape => exact suffix_cons ..
  | keep => exact drop_suffix ..

theorem mem_of_unquoteLoop (h : unquoteLoop fuel s = some p) : 34 ∈ s := by
  induction fuel generalizing s p with
  | zero => cases h
  | succ fuel ih =>
    cases s with
    | nil => cases h
    | cons b bs =>
      rw [unquoteLoop] at h
      split at h
      · cases h
      next rest hstep =>
        cases unquoteStep_eq_some.mp hstep with
        | close hb =>
          rw [hb]
          exact mem_cons_self ..
      next c rest hstep =>
        obtain ⟨q, hq, -⟩ := map_eq_some_iff.mp h
        exact mem_cons_of_mem _ ((unquoteStep_eq_some.mp hstep).suffix.subset (ih hq))

/-- A pair of escapes is not made by text that follows. -/
theorem lowSurrogate_append_of_none (h : lowSurrogate s = none) (hs : unquoteLoop fuel s = some p)
    (t : Bytes) : lowSurrogate (s ++ t) = none := by
  rw [lowSurrogate.eq_def]
  split
  next u heq =>
    cases fuel with
    | zero => cases hs
    | succ fuel =>
      -- the escape begins in `s`, and so it is read from there
      rcases s with _ | ⟨a, _ | ⟨b, v⟩⟩
      · cases hs
      · obtain rfl := (cons.inj heq).1
        cases hs
      · obtain ⟨rfl, htail⟩ := cons.inj heq
        obtain ⟨rfl, rfl⟩ := cons.inj htail
        cases hget : getu4 v with
        | none => simp [unquoteLoop, unquoteStep, unescapeRune, hget] at hs
        | some q =>
          obtain ⟨w, rfl, hread⟩ := getu4_eq_some hget
          simp only [lowSurrogate, hread] at h
          simp only [List.append_eq, append_assoc, hread]
          split at h
          · cases h
          · exact if_neg ‹_›
  · rfl

theorem unescapeRune_append (h : unescapeRune s = some (c, rest))
    (hrest : unquoteLoop fuel rest = some p) (t : Bytes) :
    unescapeRune (s ++ t) = some (c, rest ++ t) := by
  rw [unescapeRune] at h ⊢
  split at h
  · cases h
  next r u hget =>
    obtain ⟨v, rfl, hread⟩ := getu4_eq_some hget
    simp only [append_assoc, hread]
    split at h
    next hrange =>
      rw [if_pos hrange]
      by_cases hhigh : r < 0xDC00
      · simp only [hhigh, if_true] at h ⊢
        cases hlow : lowSurrogate u with
        | none =>
          rw [hlow] at h
          cases h
          rw [lowSurrogate_append_of_none hlow hrest]
        | some q =>
          rw [hlow] at h
          obtain ⟨rfl, rfl⟩ := Prod.mk.inj (some.inj h)
          obtain ⟨w, rfl, hread⟩ := lowSurrogate_eq_some hlow
          rw [append_assoc, hread]
      · simp only [hhigh, if_false] at h ⊢
        cases h
        rfl
    next hrange =>
      cases h
      rw [if_neg hrange]

theorem Reads.append (h : Reads b bs (some c) rest) (hrest : unquoteLoop fuel rest = some p)
    (t : Bytes) : Reads b (bs ++ t) (some c) (rest ++ t) := by
  have hquote : 34 ∈ bs := h.suffix.subset (mem_of_unquoteLoop hrest)
  cases h with
  | rune hb hc => exact .rune hb (unescapeRune_append hc hrest t)
  | escape hb hc hd => exact .escape hb hc hd
  | replace h34 h92 h20 htail => exact .replace h34 h92 h20 (by rw [runeTail_append hquote, htail])
  | keep h34 h92 h20 htail =>
    have hn := (runeTail_take_append htail []).2
    rw [← take_append_of_le_length hn, ← drop_append_of_le_length hn]
    exact .keep h34 h92 h20 (by rw [runeTail_append hquote, htail])

theorem unquoteLoop_append {fuel' : ℕ} {v : Bytes} (h : unquoteLoop fuel s = some (v, rest))
    (hfuel : fuel ≤ fuel') (t : Bytes) : unquoteLoop fuel' (s ++ t) = some (v, rest ++ t) := by
  induction fuel generalizing fuel' s v with
  | zero => cases h
  | succ fuel ih =>
    obtain ⟨fuel', rfl⟩ : ∃ k, fuel' = k + 1 := ⟨fuel' - 1, by omega⟩
    cases s with
    | nil => cases h
    | cons b bs =>
      rw [unquoteLoop] at h
      split at h
      · cases h
      next u hstep =>
        cases h
        cases unquoteStep_eq_some.mp hstep with
        | close hb =>
          have hclose : unquoteStep b (rest ++ t) = some (none, rest ++ t) :=
            unquoteStep_eq_some.mpr (.close hb)
          rw [cons_append, unquoteLoop, hclose]
      next c u hstep =>
        obtain ⟨⟨w, u'⟩, hloop, hp⟩ := map_eq_some_iff.mp h
        cases hp
        have hreads := (unquoteStep_eq_some.mp hstep).append hloop t
        rw [cons_append, unquoteLoop, unquoteStep_eq_some.mpr hreads]
        simp only [ih hloop (Nat.le_of_succ_le_succ hfuel), map_some]

theorem unquote_append {v : Bytes} (h : unquote s = some (v, rest)) (t : Bytes) :
    unquote (s ++ t) = some (v, rest ++ t) :=
  unquoteLoop_append h (by rw [length_append]; omega) t

/-! ### Values -/

/-- What is read with `r` left is read with `r ++ t` left: no number goes on. -/
def Stops (r t : Bytes) : Prop := r = [] → Ends t

theorem Stops.of_ne_nil (h : r ≠ []) : Stops r t := fun hr => absurd hr h

theorem skipSpace_append (h : skipSpace s ≠ []) (t : Bytes) :
    skipSpace (s ++ t) = skipSpace s ++ t := by
  rw [skipSpace, dropWhile_append, if_neg]
  · rfl
  · simpa [skipSpace] using h

theorem skipSpace_append_of_cons {u : Bytes} (h : skipSpace s = b :: u) (t : Bytes) :
    skipSpace (s ++ t) = b :: (u ++ t) := by
  rw [skipSpace_append (by rw [h]; exact cons_ne_nil b u), h, cons_append]

theorem dropWhile_isDigit_of_ends (h : Ends t) : t.dropWhile isDigit = t := by
  have hnone : ([] ++ t).dropWhile isDigit = t := dropWhile_digits (by simp) h
  rwa [nil_append] at hnone

theorem scanDigits_append (h : scanDigits s = some r) (hstop : Stops r t) :
    scanDigits (s ++ t) = some (r ++ t) := by
  cases s with
  | nil => cases h
  | cons b bs =>
    obtain ⟨hb, ⟨⟩⟩ := ite_none_right_eq_some.mp h
    rw [cons_append, scanDigits, if_pos hb, dropWhile_append]
    split
    next hempty =>
      have hnil : bs.dropWhile isDigit = [] := isEmpty_iff.mp hempty
      rw [hnil, nil_append, dropWhile_isDigit_of_ends (hstop hnil)]
    · rfl

theorem scanInt_append (h : scanInt s = some r) (hstop : Stops r t) :
    scanInt (s ++ t) = some (r ++ t) := by
  cases s with
  | nil => cases h
  | cons b bs =>
    simp only [cons_append, scanInt] at h ⊢
    split_ifs at h ⊢
    · cases h
      rfl
    · exact scanDigits_append h hstop

theorem scanFrac_append (h : scanFrac s = some r) (hstop : Stops r t) :
    scanFrac (s ++ t) = some (r ++ t) := by
  cases s with
  | nil =>
    cases h
    exact scanFrac_of_ends (hstop rfl)
  | cons b bs =>
    simp only [cons_append, scanFrac] at h ⊢
    split_ifs at h ⊢
    · exact scanDigits_append h hstop
    · cases h
      rfl

theorem scanSigned_append (h : scanSigned s = some r) (hstop : Stops r t) :
    scanSigned (s ++ t) = some (r ++ t) := by
  cases s with
  | nil => cases h
  | cons b bs =>
    simp only [cons_append, scanSigned] at h ⊢
    split_ifs at h ⊢
    · exact scanDigits_append h hstop
    · exact scanDigits_append h hstop

theorem scanExp_append (h : scanExp s = some r) (hstop : Stops r t) :
    scanExp (s ++ t) = some (r ++ t) := by
  cases s with
  | nil =>
    cases h
    exact scanExp_of_ends (hstop rfl)
  | cons b bs =>
    simp only [cons_append, scanExp] at h ⊢
    split_ifs at h ⊢
    · exact scanSigned_append h hstop
    · cases h
      rfl

/-- The three parts of a number. If one of them ends with the text, so do those after it. -/
theorem scanUnsigned_append (h : scanUnsigned s = some r) (hstop : Stops r t) :
    scanUnsigned (s ++ t) = some (r ++ t) := by
  obtain ⟨r₂, h₂, hexp⟩ := bind_eq_some_iff.mp h
  obtain ⟨r₁, hint, hfrac⟩ := bind_eq_some_iff.mp h₂
  have hstop₂ : Stops r₂ t := by
    rintro rfl
    exact hstop (some.inj hexp).symm
  have hstop₁ : Stops r₁ t := by
    rintro rfl
    exact hstop₂ (some.inj hfrac).symm
  rw [scanUnsigned, scanInt_append hint hstop₁, bind_some, scanFrac_append hfrac hstop₂,
    bind_some, scanExp_append hexp hstop]

theorem scanLiteral_append (h : scanLiteral s = some r) (t : Bytes) :
    scanLiteral (s ++ t) = some (r ++ t) := by
  have hlength : ∀ {n : ℕ} {l : Bytes}, s.take n = l → l.length = n → n ≤ s.length := by
    intro n l hl hn
    rw [← hl, length_take] at hn
    omega
  rw [scanLiteral] at h
  split at h
  next hfour =>
    cases h
    have hn : 4 ≤ s.length := by
      rcases hfour with hfour | hfour
      · exact hlength hfour rfl
      · exact hlength hfour rfl
    rw [scanLiteral, take_append_of_le_length hn, if_pos hfour, drop_append_of_le_length hn]
  next hfour =>
    obtain ⟨hfive, ⟨⟩⟩ := ite_none_right_eq_some.mp h
    have hn : 5 ≤ s.length := hlength hfive rfl
    rw [scanLiteral, take_append_of_le_length (by omega : 4 ≤ s.length), if_neg hfour,
      take_append_of_le_length hn, if_pos hfive, drop_append_of_le_length hn]

section Nested

variable {value value' : Bytes → Option Bytes} {t : Bytes}
  (hblank : ∀ s, skipSpace s = [] → value s = none)
  (hvalue : ∀ s r, value s = some r → r ≠ [] → value' (s ++ t) = some (r ++ t))

variable {fuel : ℕ} {s r : Bytes} {ms : List (Bytes × Bytes)}

include hvalue in
theorem scanElems_append {fuel' : ℕ} (h : scanElems value fuel s = some r) (hfuel : fuel ≤ fuel') :
    scanElems value' fuel' (s ++ t) = some (r ++ t) := by
  induction fuel generalizing fuel' s with
  | zero => cases h
  | succ fuel ih =>
    obtain ⟨fuel', rfl⟩ : ∃ k, fuel' = k + 1 := ⟨fuel' - 1, by omega⟩
    rw [scanElems] at h
    split at h
    · cases h
    next rest hv =>
      have hne : ∀ {b : UInt8} {u : Bytes}, skipSpace rest = b :: u → rest ≠ [] := by
        rintro b u hskip rfl
        cases hskip
      split at h
      next u hskip =>
        rw [scanElems, hvalue s rest hv (hne hskip)]
        simp only [skipSpace_append_of_cons hskip]
        exact ih h (Nat.le_of_succ_le_succ hfuel)
      next u hskip =>
        cases h
        rw [scanElems, hvalue s rest hv (hne hskip)]
        simp only [skipSpace_append_of_cons hskip]
      · cases h

include hblank hvalue in
theorem readMember_append {m : Bytes × Bytes} (h : readMember value s = some (m, r)) (hr : r ≠ []) :
    ∃ m', readMember value' (s ++ t) = some (m', r ++ t) := by
  rw [readMember] at h
  split at h
  next u hskip =>
    split at h
    · cases h
    next key rest hkey =>
      split at h
      next u' hskip' =>
        split at h <;> cases h
        next hv =>
          have hvalued : skipSpace u' ≠ [] := by
            intro hempty
            rw [hempty, hblank [] rfl] at hv
            cases hv
          rw [readMember]
          simp only [skipSpace_append_of_cons hskip, unquote_append hkey,
            skipSpace_append_of_cons hskip', skipSpace_append hvalued, hvalue _ _ hv hr]
          exact ⟨_, rfl⟩
      · cases h
  · cases h

include hblank hvalue in
theorem readMore_append {fuel' : ℕ} (h : readMore value fuel s = some (ms, r))
    (hfuel : fuel ≤ fuel') : ∃ ms', readMore value' fuel' (s ++ t) = some (ms', r ++ t) := by
  induction fuel generalizing fuel' s ms with
  | zero => cases h
  | succ fuel ih =>
    obtain ⟨fuel', rfl⟩ : ∃ k, fuel' = k + 1 := ⟨fuel' - 1, by omega⟩
    rw [readMore] at h
    split at h
    · cases h
    next m rest hm =>
      have hne : ∀ {b : UInt8} {u : Bytes}, skipSpace rest = b :: u → rest ≠ [] := by
        rintro b u hskip rfl
        cases hskip
      split at h
      next u hskip =>
        obtain ⟨m', hm'⟩ := readMember_append hblank hvalue hm (hne hskip)
        obtain ⟨⟨ms₁, r₁⟩, hmore, hp⟩ := map_eq_some_iff.mp h
        cases hp
        obtain ⟨ms', hms'⟩ := ih hmore (Nat.le_of_succ_le_succ hfuel)
        refine ⟨m' :: ms', ?_⟩
        rw [readMore, hm']
        simp only [skipSpace_append_of_cons hskip, hms', map_some]
      next u hskip =>
        obtain ⟨m', hm'⟩ := readMember_append hblank hvalue hm (hne hskip)
        cases h
        refine ⟨[m'], ?_⟩
        rw [readMore, hm']
        simp only [skipSpace_append_of_cons hskip]
      · cases h

theorem exists_of_readMember {value : Bytes → Option Bytes} {p : (Bytes × Bytes) × Bytes}
    (h : readMember value s = some p) : ∃ u, skipSpace s = 34 :: u := by
  rw [readMember] at h
  split at h
  next u hskip => exact ⟨u, hskip⟩
  · cases h

theorem exists_of_readMore {value : Bytes → Option Bytes} {p : List (Bytes × Bytes) × Bytes}
    (h : readMore value fuel s = some p) : ∃ u, skipSpace s = 34 :: u := by
  cases fuel with
  | zero => cases h
  | succ fuel =>
    rw [readMore] at h
    split at h
    · cases h
    next hm => exact exists_of_readMember hm

include hblank hvalue in
theorem readMembers_append (h : readMembers value s = some (ms, r)) :
    ∃ ms', readMembers value' (s ++ t) = some (ms', r ++ t) := by
  rw [readMembers] at h
  split at h
  next u hskip =>
    cases h
    refine ⟨[], ?_⟩
    rw [readMembers, skipSpace_append_of_cons hskip]
    rfl
  · obtain ⟨u, hskip⟩ := exists_of_readMore h
    obtain ⟨ms', hms'⟩ := readMore_append hblank hvalue h
      (by rw [length_append]; omega : s.length ≤ (s ++ t).length)
    refine ⟨ms', ?_⟩
    rw [readMembers, skipSpace_append_of_cons hskip]
    exact hms'

include hblank hvalue in
theorem scanArray_append (h : scanArray value s = some r) :
    scanArray value' (s ++ t) = some (r ++ t) := by
  rw [scanArray] at h
  split at h
  next u hskip =>
    cases h
    rw [scanArray, skipSpace_append_of_cons hskip]
    rfl
  next hfirst =>
    have helems := scanElems_append hvalue h
      (by rw [length_append]; omega : s.length ≤ (s ++ t).length)
    have hskip : skipSpace s ≠ [] := by
      intro hempty
      cases hlen : s.length with
      | zero =>
        rw [hlen] at h
        cases h
      | succ fuel =>
        rw [hlen, scanElems, hblank s hempty] at h
        cases h
    obtain ⟨b, u, hu⟩ := exists_cons_of_ne_nil hskip
    rw [scanArray, skipSpace_append_of_cons hu]
    split
    next heq =>
      cases heq
      exact absurd hu (hfirst u)
    · exact helems

end Nested

variable {s : Bytes} {c : UInt8}

theorem scanFront_append {nested nested' : Option (Bytes → Option Bytes)} {r t : Bytes}
    (hblank : ∀ value ∈ nested, ∀ s, skipSpace s = [] → value s = none)
    (hvalue : ∀ value ∈ nested, ∃ value' ∈ nested', ∀ s r, value s = some r → r ≠ [] →
      value' (s ++ t) = some (r ++ t))
    (h : scanFront nested s = some r) (hstop : Stops r t) :
    scanFront nested' (s ++ t) = some (r ++ t) := by
  cases s with
  | nil => cases h
  | cons b bs =>
    rw [scanFront] at h
    rw [cons_append, scanFront]
    split at h
    next hb =>
      obtain ⟨⟨v, r'⟩, hread, rfl⟩ := map_eq_some_iff.mp h
      rw [if_pos hb, unquote_append hread, map_some]
    rename_i hstring
    rw [if_neg hstring]
    split at h
    next hb =>
      rw [if_pos hb]
      exact scanUnsigned_append h hstop
    rename_i hminus
    rw [if_neg hminus]
    split at h
    next hb =>
      obtain ⟨value, hmem, hobj⟩ := bind_eq_some_iff.mp h
      obtain ⟨⟨ms, r'⟩, hread, rfl⟩ := map_eq_some_iff.mp hobj
      obtain ⟨value', hmem', hvalue'⟩ := hvalue value hmem
      obtain ⟨ms', hms'⟩ := readMembers_append (hblank value hmem) hvalue' hread
      rw [if_pos hb, hmem', bind_some, hms', map_some]
    rename_i hobject
    rw [if_neg hobject]
    split at h
    next hb =>
      obtain ⟨value, hmem, hread⟩ := bind_eq_some_iff.mp h
      obtain ⟨value', hmem', hvalue'⟩ := hvalue value hmem
      rw [if_pos hb, hmem', bind_some]
      exact scanArray_append (hblank value hmem) hvalue' hread
    rename_i harray
    rw [if_neg harray]
    split at h
    next hb =>
      rw [if_pos hb]
      exact scanUnsigned_append h hstop
    next hb =>
      rw [if_neg hb]
      exact scanLiteral_append h t

theorem scanValue_of_blank (depth : ℕ) (h : skipSpace s = []) : scanValue depth s = none := by
  cases depth with
  | zero | succ depth => rw [scanValue, h, scanFront]

/-- **What is scanned stays the same when more text follows**, and with more nesting allowed. -/
theorem scanValue_append {depth depth' : ℕ} {r t : Bytes} (h : scanValue depth s = some r)
    (hdepth : depth ≤ depth') (hstop : Stops r t) : scanValue depth' (s ++ t) = some (r ++ t) := by
  have hskip : skipSpace s ≠ [] := by
    intro hempty
    rw [scanValue_of_blank depth hempty] at h
    cases h
  induction depth generalizing depth' s r with
  | zero =>
    obtain ⟨nested, hnested⟩ : ∃ nested, ∀ s,
        scanValue depth' s = scanFront nested (skipSpace s) := by
      cases depth' with
      | zero | succ depth' => exact ⟨_, fun s => by rw [scanValue]⟩
    rw [scanValue] at h
    rw [hnested, skipSpace_append hskip]
    exact scanFront_append (by simp) (by simp) h hstop
  | succ depth ih =>
    obtain ⟨depth', rfl⟩ : ∃ k, depth' = k + 1 := ⟨depth' - 1, by omega⟩
    rw [scanValue] at h ⊢
    rw [skipSpace_append hskip]
    refine scanFront_append ?_ ?_ h hstop
    · rintro value ⟨⟩
      exact fun s hs => scanValue_of_blank depth hs
    · rintro value ⟨⟩
      refine ⟨scanValue depth', rfl, fun s r hs hr => ?_⟩
      refine ih hs (Nat.le_of_succ_le_succ hdepth) (.of_ne_nil hr) fun hempty => ?_
      rw [scanValue_of_blank depth hempty] at hs
      cases hs

/-- **One value by itself is one value inside another text.** -/
theorem written_of_scanValue {depth depth' : ℕ} {raw : Bytes} (hspace : skipSpace raw = raw)
    (h : scanValue depth raw = some []) (hdepth : depth ≤ depth') : Written depth' raw where
  skip rest := by
    have hne : skipSpace raw ≠ [] := by
      intro hempty
      rw [scanValue_of_blank depth hempty] at h
      cases h
    rw [skipSpace_append hne, hspace]
  scan rest hends := by
    have hscan := scanValue_append h hdepth (t := rest) fun _ => hends
    rwa [nil_append] at hscan

theorem written_true (depth : ℕ) : Written depth [116, 114, 117, 101] := by
  have hscan : scanValue 0 [116, 114, 117, 101] = some [] := rfl
  exact written_of_scanValue rfl hscan (Nat.zero_le depth)

/-! ### Spaces and control characters -/

theorem not_isSpace_of_compactLoop {b : UInt8} (h : b ∈ (compactLoop false false 0 s).head?) :
    isSpace b = false := by
  induction s with
  | nil => cases h
  | cons c cs ih =>
    rw [compactLoop] at h
    split at h
    · exact ih h
    next hc =>
      have hcspace : isSpace c = false := by simpa using hc
      dsimp only at h
      split at h
      · cases h
        rfl
      · split at h
        · cases h
          rfl
        · split at h <;> cases h
          · rfl
          · exact hcspace

theorem skipSpace_of_compactLoop (h : compactLoop false false 0 s = s) : skipSpace s = s := by
  cases s with
  | nil => rfl
  | cons b bs => exact skipSpace_cons (not_isSpace_of_compactLoop (by rw [h]; rfl)) bs

theorem le_hexDigit {n : ℕ} (h : n < 16) : 0x20 ≤ hexDigit n := by
  interval_cases n <;> decide

theorem le_of_mem_escape {b : UInt8} (h : c ∈ escape b) : 0x20 ≤ c := by
  rw [escape] at h
  split at h
  next d hd =>
    have hletter : 0x20 ≤ d := by
      rw [shortEscape] at hd
      repeat' split at hd
      all_goals cases hd
      all_goals decide
    rcases mem_cons.mp h with rfl | h
    · decide
    · rwa [mem_singleton.mp h]
  · split at h
    · have hhigh : b.toNat / 16 < 16 := by have := b.toNat_lt; omega
      have hlow : b.toNat % 16 < 16 := Nat.mod_lt _ (by decide)
      have hall : ∀ x ∈ escapeHex b, 0x20 ≤ x := by
        simp only [escapeHex, forall_mem_cons, not_mem_nil, false_imp_iff,
          implies_true, and_true, le_hexDigit hhigh, le_hexDigit hlow]
        decide
      exact hall c h
    next hb =>
      rw [mem_singleton.mp h]
      exact UInt8.not_lt.mp fun hlt => hb (.inl hlt)

theorem le_of_mem_quoteBody {keep : Bool} (hk : ∀ b ∈ s.take n, 0x20 ≤ b)
    (h : c ∈ quoteBody keep n s) : 0x20 ≤ c := by
  have hletters : ∀ {l : Bytes}, (l.all fun x => decide (0x20 ≤ x)) = true → c ∈ l → 0x20 ≤ c :=
    fun hl hc => of_decide_eq_true (all_eq_true.mp hl c hc)
  have hlarge : ∀ {x : UInt8}, 0x80 ≤ x → 0x20 ≤ x := UInt8.le_trans (by decide)
  have htail : ∀ {b : UInt8} {bs : Bytes} {n : ℕ}, runeTail b bs = some n → ∀ x ∈ bs.take n, 0x20 ≤ x :=
    fun ht x hx => hlarge (le_of_runeTail ht x hx)
  fun_induction quoteBody keep n s with
  | case1 => cases h
  | case2 keep k b bs ih =>
    obtain ⟨hb, hbs⟩ := forall_mem_cons.mp hk
    rcases mem_append.mp h with h | h
    · split at h
      · rwa [mem_singleton.mp h]
      · cases h
    · exact ih hbs h
  | case3 keep b bs hb ih =>
    rcases mem_append.mp h with h | h
    · exact le_of_mem_escape h
    · exact ih (by simp) h
  | case4 keep b bs hb htail ih =>
    rcases mem_append.mp h with h | h
    · exact hletters (by decide) h
    · exact ih (by simp) h
  | case5 keep b bs hb n hn hsep ih | case6 keep b bs hb n hn hsep hsep' ih =>
    rcases mem_append.mp h with h | h
    · exact hletters (by decide) h
    · exact ih (htail hn) h
  | case7 keep b bs hb n hn hsep hsep' ih =>
    rcases mem_cons.mp h with rfl | h
    · exact hlarge (UInt8.not_lt.mp hb)
    · exact ih (htail hn) h

theorem le_of_mem_quote (h : c ∈ quote s) : 0x20 ≤ c := by
  rcases mem_cons.mp h with rfl | h
  · decide
  · rcases mem_append.mp h with h | h
    · exact le_of_mem_quoteBody (by simp) h
    · rw [mem_singleton.mp h]
      decide

end RanGame.Json
