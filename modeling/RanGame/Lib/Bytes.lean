import Mathlib.Data.Nat.Digits.Lemmas

/-!
# Byte strings: fixed-width integers, decimal text and separators

What a hand-written wire format is made of: big-endian integers of a given width (`toBE`, `ofBE`),
decimal numerals (`decimal`, `atoi`), and cutting at a separator (`cut`, `splitN`).
-/

namespace RanGame

open List

abbrev Bytes := List UInt8

/-! ### Big-endian integers -/

/-- The `k` low bytes of `n`, most significant first. -/
def toBE : ℕ → ℕ → Bytes
  | 0, _ => []
  | k + 1, n => UInt8.ofNat (n / 256 ^ k) :: toBE k n

/-- The number a big-endian byte string stands for. -/
def ofBE : Bytes → ℕ
  | [] => 0
  | b :: bs => b.toNat * 256 ^ bs.length + ofBE bs

@[simp] theorem length_toBE (k n : ℕ) : (toBE k n).length = k := by
  induction k with
  | zero => rfl
  | succ k ih => simp [toBE, ih]

theorem ofBE_toBE (k n : ℕ) : ofBE (toBE k n) = n % 256 ^ k := by
  induction k with
  | zero => simp [toBE, ofBE, Nat.mod_one]
  | succ k ih =>
    have hsplit : n % 256 ^ (k + 1) = n % 256 ^ k + 256 ^ k * (n / 256 ^ k % 256) :=
      Nat.mod_pow_succ
    rw [toBE, ofBE, ih, length_toBE, UInt8.toNat_ofNat', hsplit]
    ring

theorem ofBE_toBE_of_lt {k n : ℕ} (h : n < 256 ^ k) : ofBE (toBE k n) = n := by
  rw [ofBE_toBE, Nat.mod_eq_of_lt h]

theorem ofBE_lt (bs : Bytes) : ofBE bs < 256 ^ bs.length := by
  induction bs with
  | nil => simp [ofBE]
  | cons b bs ih =>
    have hb : b.toNat < 256 := b.toNat_lt
    rw [ofBE, length_cons, pow_succ]
    have hle : b.toNat * 256 ^ bs.length ≤ 255 * 256 ^ bs.length :=
      Nat.mul_le_mul_right _ (by omega)
    omega

theorem toBE_add (k m n : ℕ) : toBE k (m * 256 ^ k + n) = toBE k n := by
  induction k generalizing m with
  | zero => rfl
  | succ k ih =>
    have hsplit : m * 256 ^ (k + 1) + n = m * 256 * 256 ^ k + n := by ring
    rw [toBE, toBE, hsplit, ih, Nat.add_comm, Nat.add_mul_div_right _ _ (by positivity)]
    congr 1
    apply UInt8.toNat_inj.mp
    simp

theorem toBE_ofBE (bs : Bytes) : toBE bs.length (ofBE bs) = bs := by
  induction bs with
  | nil => rfl
  | cons b bs ih =>
    rw [length_cons, toBE, ofBE, toBE_add, ih, Nat.add_comm,
      Nat.add_mul_div_right _ _ (by positivity), Nat.div_eq_of_lt (ofBE_lt bs), Nat.zero_add,
      UInt8.ofNat_toNat]

/-! ### Decimal numerals -/

/-- `n` in decimal, without leading zeros. -/
def decimal (n : ℕ) : Bytes :=
  if n = 0 then [48] else (Nat.digits 10 n).reverse.map fun d => UInt8.ofNat (48 + d)

def signedDecimal (i : ℤ) : Bytes :=
  if i < 0 then 45 :: decimal i.natAbs else decimal i.natAbs

def isDigit (b : UInt8) : Bool := 48 ≤ b && b ≤ 57

/-- The two ways a numeral is refused. -/
inductive NumError
  /-- A byte that is not part of a numeral, or no digits at all. -/
  | badSyntax
  /-- A numeral whose value does not fit. -/
  | range
  deriving DecidableEq, Repr

/-- Read digits onto an accumulator, refusing as soon as the value passes `max`. -/
def parseUint (max : ℕ) : ℕ → Bytes → Except NumError ℕ
  | acc, [] => .ok acc
  | acc, b :: bs =>
    if isDigit b then
      if acc * 10 + (b.toNat - 48) > max then .error .range
      else parseUint max (acc * 10 + (b.toNat - 48)) bs
    else .error .badSyntax

/-- The digits after an optional sign, as a 64-bit signed integer. -/
def parseSigned (neg : Bool) (digits : Bytes) : Except NumError ℤ :=
  if digits = [] then .error .badSyntax
  else
    match parseUint (2 ^ 64 - 1) 0 digits with
    | .error e => .error e
    | .ok n =>
      if neg then if n > 2 ^ 63 then .error .range else .ok (-(n : ℤ))
      else if n ≥ 2 ^ 63 then .error .range else .ok (n : ℤ)

/-- Parse a decimal integer: an optional sign, then at least one digit and nothing else. -/
def atoi : Bytes → Except NumError ℤ
  | [] => .error .badSyntax
  | b :: bs =>
    if b = 43 then parseSigned false bs
    else if b = 45 then parseSigned true bs
    else parseSigned false (b :: bs)

theorem isDigit_ofNat {d : ℕ} (h : d < 10) : isDigit (UInt8.ofNat (48 + d)) = true := by
  interval_cases d <;> rfl

theorem toNat_ofNat_digit {d : ℕ} (h : d < 10) : (UInt8.ofNat (48 + d)).toNat - 48 = d := by
  interval_cases d <;> rfl

/-- Parsing the printed digits of `n`, most significant first, adds `n` below the accumulator. -/
theorem parseUint_digits {max : ℕ} : ∀ (ds : List ℕ) (acc : ℕ), (∀ d ∈ ds, d < 10) →
      acc * 10 ^ ds.length + Nat.ofDigits 10 ds.reverse ≤ max →
        parseUint max acc (ds.map fun d => UInt8.ofNat (48 + d))
          = .ok (acc * 10 ^ ds.length + Nat.ofDigits 10 ds.reverse)
  | [], acc, _, _ => by simp [parseUint]
  | d :: ds, acc, hd, hmax => by
    have hd10 : d < 10 := hd d (mem_cons_self ..)
    have hsplit : acc * 10 ^ (d :: ds).length + Nat.ofDigits 10 (d :: ds).reverse
        = (acc * 10 + d) * 10 ^ ds.length + Nat.ofDigits 10 ds.reverse := by
      rw [reverse_cons, Nat.ofDigits_append, length_reverse, Nat.ofDigits_singleton, length_cons]
      ring
    rw [hsplit] at hmax ⊢
    have hacc : acc * 10 + d ≤ max := by
      calc acc * 10 + d ≤ (acc * 10 + d) * 10 ^ ds.length :=
            Nat.le_mul_of_pos_right _ (Nat.pow_pos (by norm_num))
        _ ≤ max := by omega
    rw [map_cons, parseUint, if_pos (isDigit_ofNat hd10), toNat_ofNat_digit hd10, if_neg (by omega)]
    exact parseUint_digits ds (acc * 10 + d) (fun e he => hd e (mem_cons_of_mem _ he)) hmax

theorem decimal_eq_map {n : ℕ} (h : n ≠ 0) :
    decimal n = (Nat.digits 10 n).reverse.map fun d => UInt8.ofNat (48 + d) := by
  rw [decimal, if_neg h]

theorem isDigit_of_mem_decimal {n : ℕ} {b : UInt8} (hb : b ∈ decimal n) : isDigit b = true := by
  by_cases hn : n = 0
  · subst hn
    obtain rfl : b = 48 := by simpa [decimal] using hb
    rfl
  · rw [decimal_eq_map hn] at hb
    obtain ⟨d, hd, rfl⟩ := mem_map.mp hb
    exact isDigit_ofNat (Nat.digits_lt_base (by norm_num) (mem_reverse.mp hd))

theorem not_mem_decimal {b : UInt8} (hb : isDigit b = false) (n : ℕ) : b ∉ decimal n := by
  intro hmem
  rw [isDigit_of_mem_decimal hmem] at hb
  exact absurd hb (by simp)

theorem decimal_ne_nil (n : ℕ) : decimal n ≠ [] := by
  by_cases hn : n = 0
  · subst hn; simp [decimal]
  · simp [decimal_eq_map hn, Nat.digits_ne_nil_iff_ne_zero.mpr hn]

theorem parseUint_decimal {max n : ℕ} (h : n ≤ max) : parseUint max 0 (decimal n) = .ok n := by
  by_cases hn : n = 0
  · subst hn; simp [decimal, parseUint, isDigit]
  · have hval : 0 * 10 ^ (Nat.digits 10 n).reverse.length
        + Nat.ofDigits 10 (Nat.digits 10 n).reverse.reverse = n := by
      rw [reverse_reverse, Nat.ofDigits_digits]; omega
    rw [decimal_eq_map hn, parseUint_digits _ _
      (fun d hd => Nat.digits_lt_base (by norm_num) (mem_reverse.mp hd)) (by omega), hval]

/-- **A printed number is read back**, as long as it fits a 64-bit `int`. -/
theorem atoi_decimal {n : ℕ} (h : n < 2 ^ 63) : atoi (decimal n) = .ok (n : ℤ) := by
  cases hd : decimal n with
  | nil => exact absurd hd (decimal_ne_nil n)
  | cons b bs =>
    have hb : isDigit b = true := isDigit_of_mem_decimal (n := n) (by simp [hd])
    have h43 : b ≠ 43 := by rintro rfl; exact absurd hb (by decide)
    have h45 : b ≠ 45 := by rintro rfl; exact absurd hb (by decide)
    rw [atoi, if_neg h43, if_neg h45, parseSigned, if_neg (by simp), ← hd,
      parseUint_decimal (by omega)]
    simp only [Bool.false_eq_true, if_false]
    rw [if_neg (by omega)]

theorem atoi_signedDecimal {i : ℤ} (h₁ : -2 ^ 63 ≤ i) (h₂ : i < 2 ^ 63) :
    atoi (signedDecimal i) = .ok i := by
  rw [signedDecimal]
  split
  next hneg =>
    rw [atoi, if_neg (by decide), if_pos rfl, parseSigned, if_neg (decimal_ne_nil _),
      parseUint_decimal (by omega)]
    simp only [if_true]
    rw [if_neg (by omega)]
    congr 1
    omega
  · rw [atoi_decimal (by omega)]
    congr 1
    omega

/-! ### Separators

`cut` and `splitN` only compare bytes for equality, so they are stated over any type. -/

section Separators

variable {α : Type*} [DecidableEq α] {sep : α} {a b s : List α}

/-- The parts before and after the first `sep`, if there is one. -/
def cut (sep : α) : List α → Option (List α × List α)
  | [] => none
  | x :: xs => if x = sep then some ([], xs) else (cut sep xs).map fun p => (x :: p.1, p.2)

/-- Cut at `sep` into at most `n` parts; the last part is whatever is left over. -/
def splitN (sep : α) : ℕ → List α → List (List α)
  | 0, _ => []
  | 1, s => [s]
  | n + 2, s =>
    match cut sep s with
    | none => [s]
    | some (a, b) => a :: splitN sep (n + 1) b

theorem cut_append (h : sep ∉ a) (b : List α) : cut sep (a ++ sep :: b) = some (a, b) := by
  induction a with
  | nil => simp [cut]
  | cons x a ih =>
    rw [mem_cons, not_or] at h
    rw [cons_append, cut, if_neg (Ne.symm h.1), ih h.2]
    rfl

theorem cut_eq_some (h : cut sep s = some (a, b)) : s = a ++ sep :: b ∧ sep ∉ a := by
  induction s generalizing a with
  | nil => simp [cut] at h
  | cons x s ih =>
    rw [cut] at h
    split at h
    next hx =>
      obtain ⟨rfl, rfl⟩ : [] = a ∧ s = b := by simpa using h
      exact ⟨by rw [hx]; rfl, by simp⟩
    next hx =>
      obtain ⟨⟨c, d⟩, hc, hcd⟩ := Option.map_eq_some_iff.mp h
      obtain ⟨rfl, rfl⟩ : x :: c = a ∧ d = b := by simpa using hcd
      obtain ⟨rfl, hnot⟩ := ih hc
      refine ⟨rfl, ?_⟩
      rw [mem_cons, not_or]
      exact ⟨fun he => hx he.symm, hnot⟩

theorem splitN_append (h : sep ∉ a) (n : ℕ) (b : List α) :
    splitN sep (n + 2) (a ++ sep :: b) = a :: splitN sep (n + 1) b := by
  rw [splitN, cut_append h]

/-- With more than one part there was a separator, where the first part ends. -/
theorem splitN_eq_cons {n : ℕ} {rest : List (List α)} (h : splitN sep (n + 2) s = a :: rest)
    (hrest : rest ≠ []) : ∃ b, s = a ++ sep :: b ∧ sep ∉ a ∧ splitN sep (n + 1) b = rest := by
  rw [splitN] at h
  split at h
  · exact absurd (by simpa using h : s = a ∧ [] = rest).2 (Ne.symm hrest)
  next c d hc =>
    obtain ⟨rfl, rfl⟩ : c = a ∧ splitN sep (n + 1) d = rest := by simpa using h
    obtain ⟨hs, hnot⟩ := cut_eq_some hc
    exact ⟨d, hs, hnot, rfl⟩

end Separators

end RanGame
