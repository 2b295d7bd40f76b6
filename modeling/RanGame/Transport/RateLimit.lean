import Mathlib.Tactic.Linarith

/-!
# The token bucket

`internal/transport/ratelimit.go`, with exact rationals for the floating-point numbers and for
times in seconds. A time before the latest one seen adds no tokens.
-/

namespace RanGame.Transport

structure TokenBucket where
  rate : ℚ
  capacity : ℚ
  tokens : ℚ
  last : ℚ

def newTokenBucket (rate capacity now : ℚ) : TokenBucket := ⟨rate, capacity, capacity, now⟩

namespace TokenBucket

/-- The part of `AllowN` that adds tokens for the time since the last call. -/
def refill (b : TokenBucket) (now : ℚ) : TokenBucket :=
  if b.last < now then
    { b with tokens := min (b.tokens + (now - b.last) * b.rate) b.capacity, last := now }
  else b

def allowN (b : TokenBucket) (now n : ℚ) : TokenBucket × Bool :=
  if b.rate ≤ 0 then (b, true)
  else if (b.refill now).tokens < n then (b.refill now, false)
  else ({ b.refill now with tokens := (b.refill now).tokens - n }, true)

def allow (b : TokenBucket) (now : ℚ) : TokenBucket × Bool := b.allowN now 1

/-- The bucket after calls of `Allow` at the given times. -/
def after (b : TokenBucket) : List ℚ → TokenBucket
  | [] => b
  | t :: ts => (b.allow t).1.after ts

/-- How many of them return `true`. -/
def granted (b : TokenBucket) : List ℚ → ℕ
  | [] => 0
  | t :: ts => (b.allow t).2.toNat + (b.allow t).1.granted ts

structure Filled (b : TokenBucket) : Prop where
  rate : 0 < b.rate
  nonneg : 0 ≤ b.tokens
  le : b.tokens ≤ b.capacity

/-- From `b` to `b'`, `n` tokens were taken; those that time has added pay for what is not in the
bucket. -/
structure Pays (b b' : TokenBucket) (n : ℕ) (t : ℚ) : Prop where
  filled : b'.Filled
  rate : b'.rate = b.rate
  capacity : b'.capacity = b.capacity
  last : b'.last = t
  paid : n + b'.tokens ≤ b.tokens + b.rate * (t - b.last)

variable {b b' b'' : TokenBucket}

theorem Pays.trans {m n : ℕ} {t t' : ℚ} (h : Pays b b' m t) (h' : Pays b' b'' n t') :
    Pays b b'' (m + n) t' where
  __ := h'
  rate := h'.rate.trans h.rate
  capacity := h'.capacity.trans h.capacity
  paid := by
    have hm := h.paid
    have hn := h'.paid
    rw [h.rate, h.last] at hn
    push_cast
    linarith

theorem Filled.refill (h : b.Filled) (now : ℚ) : Pays b (b.refill now) 0 (max b.last now) := by
  have hrate := h.rate
  unfold TokenBucket.refill
  split
  next hlt =>
    have hadded : 0 ≤ (now - b.last) * b.rate := mul_nonneg (by linarith) hrate.le
    rw [max_eq_right hlt.le]
    refine ⟨⟨hrate, le_min ?_ (h.nonneg.trans h.le), min_le_right _ _⟩, rfl, rfl, rfl, ?_⟩
    · linarith [h.nonneg]
    · have hmin := min_le_left (b.tokens + (now - b.last) * b.rate) b.capacity
      show ((0 : ℕ) : ℚ) + min (b.tokens + (now - b.last) * b.rate) b.capacity ≤ _
      push_cast
      linarith
  next hle =>
    rw [max_eq_left (not_lt.mp hle)]
    exact ⟨h, rfl, rfl, rfl, by simp⟩

theorem Filled.allow (h : b.Filled) (now : ℚ) :
    Pays b (b.allow now).1 (b.allow now).2.toNat (max b.last now) := by
  obtain ⟨hfilled, hrate, hcapacity, hlast, hpaid⟩ := h.refill now
  unfold TokenBucket.allow allowN
  rw [if_neg (not_le.mpr h.rate)]
  split
  · exact ⟨hfilled, hrate, hcapacity, hlast, hpaid⟩
  next henough =>
    refine ⟨⟨hfilled.rate, ?_, ?_⟩, hrate, hcapacity, hlast, ?_⟩
    · show 0 ≤ (b.refill now).tokens - 1
      linarith
    · show (b.refill now).tokens - 1 ≤ (b.refill now).capacity
      linarith [hfilled.le]
    · show ((1 : ℕ) : ℚ) + ((b.refill now).tokens - 1) ≤ _
      push_cast at hpaid ⊢
      linarith

theorem Filled.after (h : b.Filled) (ts : List ℚ) :
    Pays b (b.after ts) (b.granted ts) (ts.foldl max b.last) := by
  induction ts generalizing b with
  | nil => exact ⟨h, rfl, rfl, rfl, by simp [TokenBucket.after, granted]⟩
  | cons t ts ih =>
    have hallow := h.allow t
    have hrest := ih hallow.filled
    rw [hallow.last] at hrest
    exact hallow.trans hrest

/-- **The rate limit.** After any calls of `Allow` the tokens are between 0 and the capacity, and of
calls that follow no more are granted than the capacity and what is added while the latest time seen
advances. -/
theorem granted_le {rate capacity : ℚ} (hrate : 0 < rate) (hcapacity : 0 ≤ capacity) (now : ℚ)
    (before block : List ℚ) :
    let b := (newTokenBucket rate capacity now).after before
    (0 ≤ b.tokens ∧ b.tokens ≤ capacity) ∧ b.last = before.foldl max now ∧
      (b.after block).last = block.foldl max b.last ∧
      b.granted block ≤ capacity + rate * ((b.after block).last - b.last) := by
  intro b
  have hbefore : Pays (newTokenBucket rate capacity now) b _ _ :=
    Filled.after ⟨hrate, hcapacity, le_rfl⟩ before
  have hblock := hbefore.filled.after block
  have hle : b.tokens ≤ capacity := hbefore.filled.le.trans_eq hbefore.capacity
  refine ⟨⟨hbefore.filled.nonneg, hle⟩, hbefore.last, hblock.last, ?_⟩
  have hpaid := hblock.paid
  rw [hbefore.rate, ← hblock.last] at hpaid
  have hnonneg := hblock.filled.nonneg
  show _ ≤ capacity + (newTokenBucket rate capacity now).rate * _
  linarith

/-- Two calls in a burst, one refused, and one after the clock has gone back and on. -/
theorem granted_le_burst : (newTokenBucket 1 2 0).granted [0, 0, 0, -5, 1] = 3 ∧
    ((newTokenBucket 1 2 0).granted [0, 0, 0, -5, 1] : ℚ) ≤
      2 + 1 * (((newTokenBucket 1 2 0).after [0, 0, 0, -5, 1]).last - 0) :=
  ⟨by decide +kernel, (granted_le one_pos (by decide) 0 [] [0, 0, 0, -5, 1]).2.2.2⟩

end TokenBucket

end RanGame.Transport
