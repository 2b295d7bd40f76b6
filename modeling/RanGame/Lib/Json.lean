import RanGame.Lib.Bytes

/-!
# JSON text

JSON as a byte-oriented library writes and reads it. Strings are arbitrary bytes: writer and reader
replace what is not UTF-8. A value that is read is kept as the text it was, so that it can be
decoded by type later. Values may be nested to a limited depth, and the depth that is left is what
`scanValue` recurses on.
-/

namespace RanGame.Json

open List

/-! ### Characters -/

/-- `n` bytes that continue a character, the first of them in a certain range. -/
def tails (lo hi : UInt8) : ℕ → Bytes → Bool
  | 0, _ => true
  | n + 1, b :: bs => lo ≤ b && b ≤ hi && tails 0x80 0xBF n bs
  | _ + 1, [] => false

/-- How many bytes follow the first byte of a character, and the range of the next one. -/
def tailsOf (a : UInt8) : Option (UInt8 × UInt8 × ℕ) :=
  if a < 0x80 then some (0x80, 0xBF, 0)
  else if a < 0xC2 then none
  else if a ≤ 0xDF then some (0x80, 0xBF, 1)
  else if a = 0xE0 then some (0xA0, 0xBF, 2)
  else if a = 0xED then some (0x80, 0x9F, 2)
  else if a ≤ 0xEF then some (0x80, 0xBF, 2)
  else if a = 0xF0 then some (0x90, 0xBF, 3)
  else if a ≤ 0xF3 then some (0x80, 0xBF, 3)
  else if a = 0xF4 then some (0x80, 0x8F, 3)
  else none

/-- How many bytes follow the first byte of the UTF-8 character at the front. -/
def runeTail (a : UInt8) (bs : Bytes) : Option ℕ :=
  match tailsOf a with
  | none => none
  | some (lo, hi, n) => if tails lo hi n bs then some n else none

def encodeRune (r : ℕ) : Bytes :=
  if r < 0x80 then [UInt8.ofNat r]
  else if r < 0x800 then [UInt8.ofNat (0xC0 + r / 64), UInt8.ofNat (0x80 + r % 64)]
  else if r < 0x10000 then
    [UInt8.ofNat (0xE0 + r / 4096), UInt8.ofNat (0x80 + r / 64 % 64), UInt8.ofNat (0x80 + r % 64)]
  else
    [UInt8.ofNat (0xF0 + r / 262144), UInt8.ofNat (0x80 + r / 4096 % 64),
      UInt8.ofNat (0x80 + r / 64 % 64), UInt8.ofNat (0x80 + r % 64)]

/-- U+FFFD, which stands for what is not UTF-8. -/
def replacement : Bytes := encodeRune 0xFFFD

variable {n depth : ℕ} {bs c rest raw : Bytes} {b : UInt8} {ms : List (Bytes × Bytes)}

theorem tails_take_append {lo hi : UInt8} (h : tails lo hi n bs = true) (rest : Bytes) :
    tails lo hi n (bs.take n ++ rest) = true := by
  induction n generalizing lo hi bs with
  | zero => rfl
  | succ n ih =>
    cases bs with
    | nil => cases h
    | cons b bs =>
      simp only [tails, Bool.and_eq_true] at h
      simp only [take_succ_cons, cons_append, tails, Bool.and_eq_true]
      exact ⟨h.1, ih h.2⟩

theorem length_of_tails {lo hi : UInt8} (h : tails lo hi n bs = true) : n ≤ bs.length := by
  induction n generalizing lo hi bs with
  | zero => exact Nat.zero_le _
  | succ n ih =>
    cases bs with
    | nil => cases h
    | cons b bs =>
      simp only [tails, Bool.and_eq_true] at h
      exact Nat.succ_le_succ (ih h.2)

theorem runeTail_take_append {a : UInt8} (h : runeTail a bs = some n) (rest : Bytes) :
    runeTail a (bs.take n ++ rest) = some n ∧ n ≤ bs.length := by
  rw [runeTail] at h ⊢
  split at h
  · cases h
  · split at h <;> cases h
    next htails => exact ⟨if_pos (tails_take_append htails rest), length_of_tails htails⟩

/-! ### Writing strings -/

def hexDigit (n : ℕ) : UInt8 := if n < 10 then UInt8.ofNat (48 + n) else UInt8.ofNat (87 + n)

/-- `\u00` and two hexadecimal digits. -/
def escapeHex (b : UInt8) : Bytes :=
  [92, 117, 48, 48, hexDigit (b.toNat / 16), hexDigit (b.toNat % 16)]

/-- The letter after a backslash for a few characters. -/
def shortEscape (b : UInt8) : Option UInt8 :=
  if b = 34 then some 34
  else if b = 92 then some 92
  else if b = 8 then some 98
  else if b = 12 then some 102
  else if b = 10 then some 110
  else if b = 13 then some 114
  else if b = 9 then some 116
  else none

/-- How an ASCII character is written. Those that mean something in HTML are escaped too. -/
def escape (b : UInt8) : Bytes :=
  match shortEscape b with
  | some c => [92, c]
  | none => if b < 0x20 ∨ b = 60 ∨ b = 62 ∨ b = 38 then escapeHex b else [b]

/-- The text of a string between its quotes, `k` bytes into a character. -/
def quoteBody (keep : Bool) : ℕ → Bytes → Bytes
  | _, [] => []
  | k + 1, b :: bs => (if keep then [b] else []) ++ quoteBody keep k bs
  | 0, b :: bs =>
    if b < 0x80 then escape b ++ quoteBody true 0 bs
    else
      match runeTail b bs with
      | none => [92, 117, 102, 102, 102, 100] ++ quoteBody true 0 bs
      | some n =>
        -- U+2028 and U+2029 end a line in JavaScript
        if b = 0xE2 ∧ bs.take 2 = [0x80, 0xA8] then
          [92, 117, 50, 48, 50, 56] ++ quoteBody false n bs
        else if b = 0xE2 ∧ bs.take 2 = [0x80, 0xA9] then
          [92, 117, 50, 48, 50, 57] ++ quoteBody false n bs
        else b :: quoteBody true n bs

def quote (s : Bytes) : Bytes := 34 :: (quoteBody true 0 s ++ [34])

/-- A string with every byte that is not UTF-8 replaced, `k` bytes into a character. -/
def coerceBody : ℕ → Bytes → Bytes
  | _, [] => []
  | k + 1, b :: bs => b :: coerceBody k bs
  | 0, b :: bs =>
    match runeTail b bs with
    | none => replacement ++ coerceBody 0 bs
    | some n => b :: coerceBody n bs

/-- What is left of a string on its way through a text. -/
def coerce (s : Bytes) : Bytes := coerceBody 0 s

theorem quoteBody_eq (keep : Bool) (k : ℕ) (bs : Bytes) : quoteBody keep k bs =
      (if keep then bs.take k else []) ++ quoteBody keep 0 (bs.drop k) := by
  induction k generalizing bs with
  | zero => cases keep <;> simp
  | succ k ih =>
    cases bs with
    | nil => cases keep <;> simp [quoteBody]
    | cons b bs => cases keep <;> simp [quoteBody, ih]

theorem coerceBody_eq (k : ℕ) (bs : Bytes) :
    coerceBody k bs = bs.take k ++ coerceBody 0 (bs.drop k) := by
  induction k generalizing bs with
  | zero => simp
  | succ k ih =>
    cases bs with
    | nil => simp [coerceBody]
    | cons b bs => simp [coerceBody, ih]

theorem quoteBody_zero (keep : Bool) (bs : Bytes) : quoteBody keep 0 bs = quoteBody true 0 bs := by
  cases bs with
  | nil | cons b bs => rfl

/-! ### Reading strings -/

def hexVal (b : UInt8) : Option ℕ :=
  if isDigit b then some (b.toNat - 48)
  else if 97 ≤ b ∧ b ≤ 102 then some (b.toNat - 87)
  else if 65 ≤ b ∧ b ≤ 70 then some (b.toNat - 55)
  else none

def getu4 : Bytes → Option (ℕ × Bytes)
  | a :: b :: c :: d :: rest =>
    match hexVal a, hexVal b, hexVal c, hexVal d with
    | some a, some b, some c, some d => some (((a * 16 + b) * 16 + c) * 16 + d, rest)
    | _, _, _, _ => none
  | _ => none

/-- A second escape that makes a pair with the first one. -/
def lowSurrogate : Bytes → Option (ℕ × Bytes)
  | 92 :: 117 :: rest =>
    match getu4 rest with
    | some (r, rest) => if 0xDC00 ≤ r ∧ r < 0xE000 then some (r, rest) else none
    | none => none
  | _ => none

/-- The character of an escape after its `u`. Half of a pair alone is replaced. -/
def unescapeRune (s : Bytes) : Option (Bytes × Bytes) :=
  match getu4 s with
  | none => none
  | some (r, rest) =>
    if 0xD800 ≤ r ∧ r < 0xE000 then
      match if r < 0xDC00 then lowSurrogate rest else none with
      | some (r', rest) => some (encodeRune ((r - 0xD800) * 1024 + (r' - 0xDC00) + 0x10000), rest)
      | none => some (replacement, rest)
    else some (encodeRune r, rest)

/-- The character that a letter after a backslash stands for. -/
def unescape (c : UInt8) : Option UInt8 :=
  if c = 34 ∨ c = 92 ∨ c = 47 then some c
  else if c = 98 then some 8
  else if c = 102 then some 12
  else if c = 110 then some 10
  else if c = 114 then some 13
  else if c = 116 then some 9
  else none

/-- One character of a string, or the rest of the text after its closing quote. -/
def unquoteStep (b : UInt8) (bs : Bytes) : Option (Option Bytes × Bytes) :=
  if b = 34 then some (none, bs)
  else if b = 92 then
    match bs with
    | [] => none
    | c :: bs =>
      if c = 117 then (unescapeRune bs).map fun p => (some p.1, p.2)
      else (unescape c).map fun d => (some [d], bs)
  else if b < 0x20 then none
  else
    match runeTail b bs with
    | none => some (some replacement, bs)
    | some n => some (some (b :: bs.take n), bs.drop n)

/-- Read a string to its closing quote, at most `fuel` characters. -/
def unquoteLoop : ℕ → Bytes → Option (Bytes × Bytes)
  | 0, _ | _ + 1, [] => none
  | fuel + 1, b :: bs =>
    match unquoteStep b bs with
    | none => none
    | some (none, rest) => some ([], rest)
    | some (some c, rest) => (unquoteLoop fuel rest).map fun p => (c ++ p.1, p.2)

/-- Read a string after its opening quote. No character takes less than a byte. -/
def unquote (s : Bytes) : Option (Bytes × Bytes) := unquoteLoop s.length s

/-! ### Strings that are written are read back -/

theorem hexVal_hexDigit (h : n < 16) : hexVal (hexDigit n) = some n := by
  interval_cases n <;> rfl

theorem encodeRune_of_lt (h : b < 0x80) : encodeRune b.toNat = [b] := by
  have hlt : b.toNat < 0x80 := UInt8.lt_iff_toNat_lt.mp h
  rw [encodeRune, if_pos hlt, UInt8.ofNat_toNat]

theorem unescape_shortEscape {c : UInt8} (h : shortEscape b = some c) :
    c ≠ 117 ∧ unescape c = some b := by
  unfold shortEscape at h
  split_ifs at h with h₁ h₂ h₃ h₄ h₅ h₆ h₇ <;> cases h <;> subst b <;> decide

theorem unescapeRune_escapeHex (h : b < 0x80) (rest : Bytes) :
    unescapeRune (48 :: 48 :: hexDigit (b.toNat / 16) :: hexDigit (b.toNat % 16) :: rest) =
      some ([b], rest) := by
  have hlt : b.toNat < 0x80 := UInt8.lt_iff_toNat_lt.mp h
  have h48 : hexVal 48 = some 0 := rfl
  have hval : ((0 * 16 + 0) * 16 + b.toNat / 16) * 16 + b.toNat % 16 = b.toNat := by omega
  simp only [unescapeRune, getu4, h48, hexVal_hexDigit (show b.toNat / 16 < 16 by omega),
    hexVal_hexDigit (show b.toNat % 16 < 16 by omega), hval]
  rw [if_neg (by omega), encodeRune_of_lt h]

theorem runeTail_of_lt (h : b < 0x80) (bs : Bytes) : runeTail b bs = some 0 := by
  simp only [runeTail, tailsOf, if_pos h, tails, if_true]

theorem unquoteLoop_of_step (h : unquoteStep b bs = some (some c, rest)) (fuel : ℕ) :
    unquoteLoop (fuel + 1) (b :: bs) = (unquoteLoop fuel rest).map fun p => (c ++ p.1, p.2) := by
  simp only [unquoteLoop, h]

theorem unquoteStep_rune (h : unescapeRune bs = some (c, rest)) :
    unquoteStep 92 (117 :: bs) = some (some c, rest) := by
  simp only [unquoteStep, if_neg (show (92 : UInt8) ≠ 34 by decide), if_true, h, Option.map_some]

theorem unquoteStep_of_runeTail (h : runeTail b bs = some n) (h34 : b ≠ 34) (h92 : b ≠ 92)
    (h20 : ¬ b < 0x20) : unquoteStep b bs = some (some (b :: bs.take n), bs.drop n) := by
  unfold unquoteStep
  rw [if_neg h34, if_neg h92, if_neg h20, h]

theorem unquoteLoop_escape (h : b < 0x80) (fuel : ℕ) (rest : Bytes) :
    unquoteLoop (fuel + 1) (escape b ++ rest) =
      (unquoteLoop fuel rest).map fun p => (b :: p.1, p.2) := by
  rw [escape]
  split
  next c hc =>
    obtain ⟨hne, hun⟩ := unescape_shortEscape hc
    have hstep : unquoteStep 92 (c :: rest) = some (some [b], rest) := by
      simp only [unquoteStep, if_neg (show (92 : UInt8) ≠ 34 by decide), if_true, if_neg hne, hun,
        Option.map_some]
    exact unquoteLoop_of_step hstep fuel
  next hnone =>
    split
    · exact unquoteLoop_of_step (unquoteStep_rune (unescapeRune_escapeHex h rest)) fuel
    next hplain =>
      have h34 : b ≠ 34 := by rintro rfl; cases hnone
      have h92 : b ≠ 92 := by rintro rfl; cases hnone
      exact unquoteLoop_of_step
        (unquoteStep_of_runeTail (runeTail_of_lt h rest) h34 h92 (not_or.mp hplain).1) fuel

theorem length_escape_pos (b : UInt8) : 0 < (escape b).length := by
  rw [escape]
  split
  · exact Nat.zero_lt_succ _
  · split <;> exact Nat.zero_lt_succ _

theorem unquoteLoop_unicode (digits : Bytes) (h : unescapeRune (digits ++ rest) = some (c, rest))
    (fuel : ℕ) : unquoteLoop (fuel + 1) (92 :: 117 :: (digits ++ rest)) =
      (unquoteLoop fuel rest).map fun p => (c ++ p.1, p.2) :=
  unquoteLoop_of_step (unquoteStep_rune h) fuel

theorem unquoteLoop_rune (h : ¬ b < 0x80) (htail : runeTail b bs = some n) (fuel : ℕ)
    (rest : Bytes) : unquoteLoop (fuel + 1) (b :: (bs.take n ++ rest)) =
      (unquoteLoop fuel rest).map fun p => (b :: (bs.take n ++ p.1), p.2) := by
  obtain ⟨hsame, hlen⟩ := runeTail_take_append htail rest
  have htake : (bs.take n).length = n := by rw [length_take]; omega
  have h34 : b ≠ 34 := by rintro rfl; exact h (by decide)
  have h92 : b ≠ 92 := by rintro rfl; exact h (by decide)
  have h20 : ¬ b < 0x20 := fun hlt => h (UInt8.lt_trans hlt (by decide))
  have hstep := unquoteStep_of_runeTail hsame h34 h92 h20
  rw [take_left' htake, drop_left' htake] at hstep
  exact unquoteLoop_of_step hstep fuel

theorem coerce_of_runeTail (h : runeTail b bs = some n) :
    coerce (b :: bs) = b :: (bs.take n ++ coerce (bs.drop n)) := by
  rw [coerce, coerceBody, h, coerce, ← coerceBody_eq]

/-- How the first character of a string is written and read, and what is left to be written. -/
theorem exists_head_quoteBody (b : UInt8) (bs : Bytes) :
    ∃ text c rest, quoteBody true 0 (b :: bs) = text ++ quoteBody true 0 rest ∧
      coerce (b :: bs) = c ++ coerce rest ∧ rest.length ≤ bs.length ∧ 0 < text.length ∧
      ∀ fuel tail, unquoteLoop (fuel + 1) (text ++ tail) =
        (unquoteLoop fuel tail).map fun p => (c ++ p.1, p.2) := by
  by_cases hascii : b < 0x80
  · refine ⟨escape b, [b], bs, ?_, ?_, le_rfl, length_escape_pos b, unquoteLoop_escape hascii⟩
    · rw [quoteBody, if_pos hascii]
    · rw [coerce_of_runeTail (runeTail_of_lt hascii bs)]
      rfl
  rw [quoteBody, if_neg hascii]
  cases htail : runeTail b bs with
  | none =>
    refine ⟨[92, 117, 102, 102, 102, 100], replacement, bs, rfl, ?_, le_rfl, by decide, ?_⟩
    · rw [coerce, coerceBody, htail]
      rfl
    · intro fuel tail
      exact unquoteLoop_unicode [102, 102, 102, 100] rfl fuel
  | some n =>
    have hn := (runeTail_take_append htail []).2
    have hcoerce := coerce_of_runeTail htail
    have hdrop : (bs.drop n).length ≤ bs.length := by rw [length_drop]; omega
    -- a line separator is three bytes long
    have hline : ∀ d : UInt8, b = 0xE2 → bs.take 2 = [0x80, d] → n = 2 ∧
        coerce (b :: bs) = [0xE2, 0x80, d] ++ coerce (bs.drop n) := by
      rintro d rfl hd
      have h2 : n = 2 := by
        have htails : tailsOf 0xE2 = some (0x80, 0xBF, 2) := rfl
        simp only [runeTail, htails] at htail
        split at htail
        · exact (Option.some.inj htail).symm
        · cases htail
      subst h2
      refine ⟨rfl, ?_⟩
      rw [hcoerce, hd]
      rfl
    dsimp only
    split
    next hsep =>
      obtain ⟨h2, hc⟩ := hline 0xA8 hsep.1 hsep.2
      refine ⟨[92, 117, 50, 48, 50, 56], [0xE2, 0x80, 0xA8], bs.drop n, ?_, hc, hdrop,
        by decide, ?_⟩
      · rw [quoteBody_eq, quoteBody_zero]
        rfl
      · intro fuel tail
        exact unquoteLoop_unicode [50, 48, 50, 56] rfl fuel
    · split
      next hsep =>
        obtain ⟨h2, hc⟩ := hline 0xA9 hsep.1 hsep.2
        refine ⟨[92, 117, 50, 48, 50, 57], [0xE2, 0x80, 0xA9], bs.drop n, ?_, hc, hdrop,
          by decide, ?_⟩
        · rw [quoteBody_eq, quoteBody_zero]
          rfl
        · intro fuel tail
          exact unquoteLoop_unicode [50, 48, 50, 57] rfl fuel
      · refine ⟨b :: bs.take n, b :: bs.take n, bs.drop n, ?_, hcoerce, hdrop,
          Nat.zero_lt_succ _, ?_⟩
        · rw [quoteBody_eq]
          rfl
        · intro fuel tail
          exact unquoteLoop_rune hascii htail fuel tail

/-- **A string is read back to its closing quote.** -/
theorem unquoteLoop_quoteBody (s rest : Bytes) {fuel : ℕ}
    (hfuel : (quoteBody true 0 s).length < fuel) :
    unquoteLoop fuel (quoteBody true 0 s ++ 34 :: rest) = some (coerce s, rest) := by
  -- one character of the string at a time
  induction hlen : s.length using Nat.strong_induction_on generalizing s fuel with
  | _ len ih =>
    obtain ⟨fuel, rfl⟩ : ∃ k, fuel = k + 1 := ⟨fuel - 1, by omega⟩
    cases s with
    | nil => rfl
    | cons b bs =>
      obtain ⟨text, c, left, hquote, hcoerce, hle, hpos, hread⟩ := exists_head_quoteBody b bs
      rw [length_cons] at hlen
      rw [hquote, length_append] at hfuel
      have hrest := ih left.length (by omega) left (by omega : _ < fuel) rfl
      rw [hquote, append_assoc, hread, hrest, hcoerce]
      rfl

theorem unquote_quote (s rest : Bytes) :
    unquote (quoteBody true 0 s ++ 34 :: rest) = some (coerce s, rest) := by
  refine unquoteLoop_quoteBody s rest ?_
  rw [length_append, length_cons]
  omega

/-! ### Reading values -/

def isSpace (b : UInt8) : Bool := b = 32 || b = 9 || b = 10 || b = 13

def skipSpace (s : Bytes) : Bytes := s.dropWhile isSpace

def scanDigits : Bytes → Option Bytes
  | [] => none
  | b :: bs => if isDigit b then some (bs.dropWhile isDigit) else none

/-- Digits without a leading zero. -/
def scanInt : Bytes → Option Bytes
  | [] => none
  | b :: bs => if b = 48 then some bs else scanDigits (b :: bs)

def scanFrac : Bytes → Option Bytes
  | [] => some []
  | b :: bs => if b = 46 then scanDigits bs else some (b :: bs)

/-- The digits of an exponent after an optional sign. -/
def scanSigned : Bytes → Option Bytes
  | [] => none
  | b :: bs => if b = 43 ∨ b = 45 then scanDigits bs else scanDigits (b :: bs)

def scanExp : Bytes → Option Bytes
  | [] => some []
  | b :: bs => if b = 101 ∨ b = 69 then scanSigned bs else some (b :: bs)

/-- A number after an optional minus. -/
def scanUnsigned (s : Bytes) : Option Bytes := ((scanInt s).bind scanFrac).bind scanExp

def scanLiteral (s : Bytes) : Option Bytes :=
  if s.take 4 = [116, 114, 117, 101] ∨ s.take 4 = [110, 117, 108, 108] then some (s.drop 4)
  else if s.take 5 = [102, 97, 108, 115, 101] then some (s.drop 5)
  else none

/-- What was read of `s` when `rest` is left. -/
def consumed (s rest : Bytes) : Bytes := s.take (s.length - rest.length)

/-- The elements of an array after its bracket, at most `fuel` of them. -/
def scanElems (value : Bytes → Option Bytes) : ℕ → Bytes → Option Bytes
  | 0, _ => none
  | fuel + 1, s =>
    match value s with
    | none => none
    | some rest =>
      match skipSpace rest with
      | 44 :: rest => scanElems value fuel rest
      | 93 :: rest => some rest
      | _ => none

/-- One member of an object: its key, and the text of its value. -/
def readMember (value : Bytes → Option Bytes) (s : Bytes) : Option ((Bytes × Bytes) × Bytes) :=
  match skipSpace s with
  | 34 :: s =>
    match unquote s with
    | none => none
    | some (key, rest) =>
      match skipSpace rest with
      | 58 :: s =>
        match value (skipSpace s) with
        | none => none
        | some rest => some ((key, consumed (skipSpace s) rest), rest)
      | _ => none
  | _ => none

/-- The members of an object that has some, at most `fuel` of them. -/
def readMore (value : Bytes → Option Bytes) : ℕ → Bytes → Option (List (Bytes × Bytes) × Bytes)
  | 0, _ => none
  | fuel + 1, s =>
    match readMember value s with
    | none => none
    | some (m, rest) =>
      match skipSpace rest with
      | 44 :: rest => (readMore value fuel rest).map fun p => (m :: p.1, p.2)
      | 125 :: rest => some ([m], rest)
      | _ => none

/-- The members of an object after its brace. -/
def readMembers (value : Bytes → Option Bytes) (s : Bytes) :
    Option (List (Bytes × Bytes) × Bytes) :=
  match skipSpace s with
  | 125 :: rest => some ([], rest)
  | _ => readMore value s.length s

def scanArray (value : Bytes → Option Bytes) (s : Bytes) : Option Bytes :=
  match skipSpace s with
  | 93 :: rest => some rest
  | _ => scanElems value s.length s

/-- The text after the value at the front; `nested` scans the values inside. -/
def scanFront (nested : Option (Bytes → Option Bytes)) : Bytes → Option Bytes
  | [] => none
  | b :: bs =>
    if b = 34 then (unquote bs).map Prod.snd
    else if b = 45 then scanUnsigned bs
    else if b = 123 then nested.bind fun value => (readMembers value bs).map Prod.snd
    else if b = 91 then nested.bind fun value => scanArray value bs
    else if isDigit b then scanUnsigned (b :: bs)
    else scanLiteral (b :: bs)

/-- The text after one value. Objects and arrays may be nested `depth` times. -/
def scanValue : ℕ → Bytes → Option Bytes
  | 0, s => scanFront none (skipSpace s)
  | depth + 1, s => scanFront (some (scanValue depth)) (skipSpace s)

/-- Is a text one value and nothing else? -/
def valid (depth : ℕ) (s : Bytes) : Bool :=
  match scanValue depth s with
  | none => false
  | some rest => skipSpace rest = []

/-! ### Writing values -/

def printMember (m : Bytes × Bytes) : Bytes := quote m.1 ++ 58 :: m.2

/-- Members with commas between them. -/
def printMore (m : Bytes × Bytes) : List (Bytes × Bytes) → Bytes
  | [] => printMember m
  | m' :: ms => printMember m ++ 44 :: printMore m' ms

/-- An object with the given keys and values. -/
def printMembers : List (Bytes × Bytes) → Bytes
  | [] => [123, 125]
  | m :: ms => 123 :: (printMore m ms ++ [125])

/-- A text without its spaces, and with HTML and JavaScript escaped; `skip` bytes have been written.
-/
def compactLoop (quoted escaped : Bool) : ℕ → Bytes → Bytes
  | _, [] => []
  | skip + 1, _ :: bs => compactLoop quoted false skip bs
  | 0, b :: bs =>
    if !quoted && isSpace b then compactLoop false false 0 bs
    else
      let quoted' := if b = 34 && !escaped then !quoted else quoted
      let escaped' := quoted && !escaped && b = 92
      if b = 60 ∨ b = 62 ∨ b = 38 then escapeHex b ++ compactLoop quoted' escaped' 0 bs
      else if b = 0xE2 ∧ bs.take 2 = [0x80, 0xA8] then
        [92, 117, 50, 48, 50, 56] ++ compactLoop quoted' escaped' 2 bs
      else if b = 0xE2 ∧ bs.take 2 = [0x80, 0xA9] then
        [92, 117, 50, 48, 50, 57] ++ compactLoop quoted' escaped' 2 bs
      else b :: compactLoop quoted' escaped' 0 bs

/-- A value that was written elsewhere, as it is written inside another one. -/
def compact (depth : ℕ) (s : Bytes) : Option Bytes :=
  if valid depth s then some (compactLoop false false 0 s) else none

/-! ### Values that are written are read back -/

/-- What can follow a value. -/
def Ends (rest : Bytes) : Prop := ∀ b ∈ rest.head?, b = 44 ∨ b = 125 ∨ b = 93 ∨ isSpace b = true

/-- The text of one value, with no space before it. -/
structure Written (depth : ℕ) (raw : Bytes) : Prop where
  skip : ∀ rest, skipSpace (raw ++ rest) = raw ++ rest
  scan : ∀ rest, Ends rest → scanValue depth (raw ++ rest) = some rest

theorem skipSpace_cons (h : isSpace b = false) (bs : Bytes) : skipSpace (b :: bs) = b :: bs := by
  rw [skipSpace, dropWhile_cons_of_neg (by rw [h]; exact Bool.false_ne_true)]

theorem ends_cons (h : b = 44 ∨ b = 125) (bs : Bytes) : Ends (b :: bs) := by
  rintro c hc
  obtain rfl : b = c := by simpa using hc
  rcases h with h | h
  · exact .inl h
  · exact .inr (.inl h)

theorem ends_nil : Ends [] := by
  rintro b hb
  cases hb

theorem Written.valid (h : Written depth raw) : valid depth raw = true := by
  have hscan := h.scan [] ends_nil
  rw [append_nil] at hscan
  simp only [Json.valid, hscan]
  rfl

theorem Written.ne_nil (h : Written depth raw) : raw ≠ [] := by
  rintro rfl
  have hscan := h.scan [] ends_nil
  cases depth with
  | zero | succ depth => cases hscan

theorem scanValue_cons (depth : ℕ) (h : isSpace b = false) (bs : Bytes) :
    ∃ nested, scanValue depth (b :: bs) = scanFront nested (b :: bs) := by
  cases depth <;> exact ⟨_, by rw [scanValue, skipSpace_cons h]⟩

theorem written_quote (depth : ℕ) (s : Bytes) : Written depth (quote s) := by
  refine ⟨fun rest => skipSpace_cons (by decide) _, fun rest _ => ?_⟩
  have htext : quote s ++ rest = 34 :: (quoteBody true 0 s ++ 34 :: rest) := by simp [quote]
  obtain ⟨nested, hscan⟩ := scanValue_cons depth (b := 34) (by decide)
    (quoteBody true 0 s ++ 34 :: rest)
  rw [htext, hscan, scanFront, if_pos rfl, unquote_quote, Option.map_some]

/-! Numbers -/

theorem exists_decimal (hn : n ≠ 0) :
    ∃ b bs, decimal n = b :: bs ∧ b ≠ 48 ∧ isDigit b = true ∧ ∀ c ∈ bs, isDigit c = true := by
  have hdigits : ∀ c ∈ decimal n, isDigit c = true := fun c hc => isDigit_of_mem_decimal hc
  rw [decimal_eq_map hn] at hdigits ⊢
  have hne : Nat.digits 10 n ≠ [] := Nat.digits_ne_nil_iff_ne_zero.mpr hn
  obtain ⟨d, ds, hds⟩ := exists_cons_of_ne_nil (reverse_ne_nil_iff.mpr hne)
  rw [hds, map_cons] at hdigits ⊢
  -- the first digit that is written is the last one of the number
  have hlast : (Nat.digits 10 n).getLast hne = d := by
    have hhead : (Nat.digits 10 n).reverse.head (reverse_ne_nil_iff.mpr hne) = d := by
      simp only [hds, head_cons]
    rw [← hhead, head_reverse]
  have hd : d ≠ 0 := hlast ▸ Nat.getLast_digit_ne_zero 10 hn
  have hlt : d < 10 := hlast ▸ Nat.digits_lt_base (by norm_num) (getLast_mem hne)
  refine ⟨_, _, rfl, ?_, hdigits _ (mem_cons_self ..), fun c hc =>
    hdigits c (mem_cons_of_mem _ hc)⟩
  interval_cases d <;> first | exact absurd rfl hd | decide

theorem Ends.not_number (h : Ends (b :: bs)) : isDigit b = false ∧ b ≠ 46 ∧ b ≠ 101 ∧ b ≠ 69 := by
  rcases h b rfl with rfl | rfl | rfl | hspace
  · decide
  · decide
  · decide
  · simp only [isSpace, Bool.or_eq_true, decide_eq_true_eq] at hspace
    rcases hspace with ((rfl | rfl) | rfl) | rfl <;> decide

theorem scanFrac_of_ends (h : Ends rest) : scanFrac rest = some rest := by
  cases rest with
  | nil => rfl
  | cons b bs => rw [scanFrac, if_neg h.not_number.2.1]

theorem scanExp_of_ends (h : Ends rest) : scanExp rest = some rest := by
  cases rest with
  | nil => rfl
  | cons b bs => rw [scanExp, if_neg (not_or.mpr h.not_number.2.2)]

theorem dropWhile_digits (hbs : ∀ c ∈ bs, isDigit c = true) (h : Ends rest) :
    (bs ++ rest).dropWhile isDigit = rest := by
  rw [dropWhile_append_of_pos hbs]
  cases rest with
  | nil => rfl
  | cons b rest =>
    rw [dropWhile_cons_of_neg (by rw [h.not_number.1]; exact Bool.false_ne_true)]

theorem scanUnsigned_decimal (n : ℕ) (h : Ends rest) :
    scanUnsigned (decimal n ++ rest) = some rest := by
  have hint : scanInt (decimal n ++ rest) = some rest := by
    by_cases hn : n = 0
    · subst hn
      rfl
    · obtain ⟨b, bs, hdec, h48, hb, hbs⟩ := exists_decimal hn
      rw [hdec, cons_append, scanInt, if_neg h48, scanDigits, if_pos hb, dropWhile_digits hbs h]
  simp only [scanUnsigned, hint, Option.bind_some, scanFrac_of_ends h, scanExp_of_ends h]

theorem ne_of_isDigit {c : UInt8} (hb : isDigit b = true) (hc : isDigit c = false) : b ≠ c := by
  rintro rfl
  rw [hb] at hc
  cases hc

theorem not_isSpace_of_isDigit (h : isDigit b = true) : isSpace b = false := by
  simp only [isSpace, Bool.or_eq_false_iff, decide_eq_false_iff_not]
  exact ⟨⟨⟨ne_of_isDigit h rfl, ne_of_isDigit h rfl⟩, ne_of_isDigit h rfl⟩, ne_of_isDigit h rfl⟩

theorem written_decimal (depth n : ℕ) : Written depth (decimal n) := by
  obtain ⟨b, bs, hdec⟩ := exists_cons_of_ne_nil (decimal_ne_nil n)
  have hb : isDigit b = true := isDigit_of_mem_decimal (n := n) (by rw [hdec]; simp)
  have hspace := not_isSpace_of_isDigit hb
  refine ⟨fun rest => ?_, fun rest hrest => ?_⟩
  · rw [hdec]
    exact skipSpace_cons hspace _
  · obtain ⟨nested, hscan⟩ := scanValue_cons depth hspace (bs ++ rest)
    have hnum := scanUnsigned_decimal n hrest
    rw [hdec, cons_append] at hnum ⊢
    rw [hscan, scanFront, if_neg (ne_of_isDigit hb rfl), if_neg (ne_of_isDigit hb rfl),
      if_neg (ne_of_isDigit hb rfl), if_neg (ne_of_isDigit hb rfl), if_pos hb, hnum]

theorem written_neg_decimal (depth n : ℕ) : Written depth (45 :: decimal n) := by
  refine ⟨fun rest => skipSpace_cons (by decide) _, fun rest hrest => ?_⟩
  obtain ⟨nested, hscan⟩ := scanValue_cons depth (b := 45) (by decide) (decimal n ++ rest)
  rw [cons_append, hscan, scanFront, if_neg (by decide), if_pos rfl, scanUnsigned_decimal n hrest]

theorem written_signedDecimal (depth : ℕ) (i : ℤ) : Written depth (signedDecimal i) := by
  rw [signedDecimal]
  split
  · exact written_neg_decimal depth _
  · exact written_decimal depth _

/-! Objects -/

theorem consumed_append (raw rest : Bytes) : consumed (raw ++ rest) rest = raw := by
  rw [consumed, length_append, Nat.add_sub_cancel, take_left]

theorem readMember_printMember {m : Bytes × Bytes} (h : Written depth m.2) (hrest : Ends rest) :
    readMember (scanValue depth) (printMember m ++ rest) = some ((coerce m.1, m.2), rest) := by
  have htext : printMember m ++ rest =
      34 :: (quoteBody true 0 m.1 ++ 34 :: (58 :: (m.2 ++ rest))) := by
    simp [printMember, quote]
  rw [htext, readMember, skipSpace_cons (by decide)]
  simp only [unquote_quote]
  rw [skipSpace_cons (by decide)]
  simp only [h.skip, h.scan rest hrest, consumed_append]

theorem length_printMore (m : Bytes × Bytes) (ms : List (Bytes × Bytes)) :
    ms.length < (printMore m ms).length := by
  induction ms generalizing m with
  | nil => simp [printMore, printMember, quote]
  | cons m' ms ih =>
    have := ih m'
    rw [printMore, length_append, length_cons, length_cons]
    omega

theorem readMore_printMore {m : Bytes × Bytes} (h : ∀ m' ∈ m :: ms, Written depth m'.2) {fuel : ℕ}
    (hfuel : ms.length < fuel) (rest : Bytes) :
    readMore (scanValue depth) fuel (printMore m ms ++ 125 :: rest) =
      some ((m :: ms).map fun m => (coerce m.1, m.2), rest) := by
  have hm := h m (mem_cons_self ..)
  induction ms generalizing m fuel with
  | nil =>
    obtain ⟨fuel, rfl⟩ : ∃ k, fuel = k + 1 := ⟨fuel - 1, by omega⟩
    rw [printMore, readMore, readMember_printMember hm (ends_cons (.inr rfl) rest)]
    rfl
  | cons m' ms ih =>
    rw [length_cons] at hfuel
    obtain ⟨fuel, rfl⟩ : ∃ k, fuel = k + 1 := ⟨fuel - 1, by omega⟩
    have hms : ∀ x ∈ m' :: ms, Written depth x.2 := fun x hx => h x (mem_cons_of_mem _ hx)
    have hmore := ih hms (by omega : _ < fuel) (hms m' (mem_cons_self ..))
    rw [printMore, append_assoc, cons_append, readMore,
      readMember_printMember hm (ends_cons (.inl rfl) _)]
    simp only [skipSpace_cons (show isSpace 44 = false by decide), hmore]
    rfl

/-- **The members of an object that is written are read back.** -/
theorem readMembers_printMembers (h : ∀ m ∈ ms, Written depth m.2) (rest : Bytes) :
    ∃ bs, printMembers ms ++ rest = 123 :: bs ∧
      readMembers (scanValue depth) bs = some (ms.map fun m => (coerce m.1, m.2), rest) := by
  cases ms with
  | nil => exact ⟨125 :: rest, rfl, rfl⟩
  | cons m ms =>
    refine ⟨printMore m ms ++ 125 :: rest, by simp [printMembers], ?_⟩
    have hquote : ∃ bs, printMore m ms ++ 125 :: rest = 34 :: bs := by
      cases ms with
      | nil | cons m' ms => exact ⟨_, rfl⟩
    have hfuel : ms.length < (printMore m ms ++ 125 :: rest).length := by
      have := length_printMore m ms
      rw [length_append]
      omega
    have hmore := readMore_printMore h hfuel rest
    obtain ⟨bs, hbs⟩ := hquote
    rw [hbs] at hmore ⊢
    rw [readMembers, skipSpace_cons (by decide)]
    exact hmore

theorem written_object (h : ∀ m ∈ ms, Written depth m.2) :
    Written (depth + 1) (printMembers ms) := by
  refine ⟨fun rest => ?_, fun rest _ => ?_⟩
  · obtain ⟨bs, hbs, -⟩ := readMembers_printMembers h rest
    rw [hbs, skipSpace_cons (by decide)]
  · obtain ⟨bs, hbs, hread⟩ := readMembers_printMembers h rest
    rw [hbs, scanValue, skipSpace_cons (by decide), scanFront, if_neg (by decide),
      if_neg (by decide), if_pos rfl, Option.bind_some, hread, Option.map_some]

/-! Values inside values -/

/-- A byte that is written as it is wherever it stands. -/
def isPlain (b : UInt8) : Bool := !isSpace b && b != 60 && b != 62 && b != 38 && b != 0xE2

theorem compactLoop_of_isPlain {s : Bytes} (h : ∀ b ∈ s, isPlain b = true)
    (quoted escaped : Bool) : compactLoop quoted escaped 0 s = s := by
  induction s generalizing quoted escaped with
  | nil => rfl
  | cons b bs ih =>
    have hb := h b (mem_cons_self ..)
    have hbs := ih fun c hc => h c (mem_cons_of_mem _ hc)
    simp only [isPlain, Bool.and_eq_true, Bool.not_eq_true', bne_iff_ne, ne_eq] at hb
    obtain ⟨⟨⟨⟨hspace, h60⟩, h62⟩, h38⟩, hE2⟩ := hb
    simp only [compactLoop, hspace, Bool.and_false, Bool.false_eq_true, h60, h62, h38, hE2,
      false_and, or_self, if_false, hbs]

theorem isPlain_of_isDigit (h : isDigit b = true) : isPlain b = true := by
  simp only [isPlain, not_isSpace_of_isDigit h, bne_iff_ne.mpr (ne_of_isDigit h (c := 60) rfl),
    bne_iff_ne.mpr (ne_of_isDigit h (c := 62) rfl), bne_iff_ne.mpr (ne_of_isDigit h (c := 38) rfl),
    bne_iff_ne.mpr (ne_of_isDigit h (c := 0xE2) rfl), Bool.not_false, Bool.and_self]

theorem isPlain_signedDecimal (i : ℤ) : ∀ b ∈ signedDecimal i, isPlain b = true := by
  have hdigits : ∀ b ∈ decimal i.natAbs, isPlain b = true :=
    fun b hb => isPlain_of_isDigit (isDigit_of_mem_decimal hb)
  rw [signedDecimal]
  split
  · exact forall_mem_cons.mpr ⟨rfl, hdigits⟩
  · exact hdigits

theorem forall_mem_printMembers {P : UInt8 → Prop} (hcomma : P 44) (hleft : P 123) (hright : P 125)
    (h : ∀ m ∈ ms, ∀ b ∈ printMember m, P b) : ∀ b ∈ printMembers ms, P b := by
  have hmore : ∀ (ms : List (Bytes × Bytes)) (m : Bytes × Bytes),
      (∀ m' ∈ m :: ms, ∀ b ∈ printMember m', P b) → ∀ b ∈ printMore m ms, P b := by
    intro ms
    induction ms with
    | nil => exact fun m hm => hm m (mem_cons_self ..)
    | cons m' ms ih =>
      intro m hm
      have hrest := ih m' fun x hx => hm x (mem_cons_of_mem _ hx)
      exact forall_mem_append.mpr ⟨hm m (mem_cons_self ..), forall_mem_cons.mpr ⟨hcomma, hrest⟩⟩
  cases ms with
  | nil => exact forall_mem_cons.mpr ⟨hleft, forall_mem_singleton.mpr hright⟩
  | cons m ms =>
    exact forall_mem_cons.mpr ⟨hleft, forall_mem_append.mpr
      ⟨hmore ms m h, forall_mem_singleton.mpr hright⟩⟩

theorem isPlain_printMembers (h : ∀ m ∈ ms, ∀ b ∈ printMember m, isPlain b = true) :
    ∀ b ∈ printMembers ms, isPlain b = true :=
  forall_mem_printMembers (P := fun b => isPlain b = true) rfl rfl rfl h

theorem compact_of_written (h : Written depth raw) (hplain : ∀ b ∈ raw, isPlain b = true) :
    compact depth raw = some raw := by
  rw [compact, if_pos h.valid, compactLoop_of_isPlain hplain]

/-! Keys -/

theorem coerce_of_ascii {s : Bytes} (h : ∀ b ∈ s, b < 0x80) : coerce s = s := by
  induction s with
  | nil => rfl
  | cons b bs ih =>
    rw [coerce_of_runeTail (runeTail_of_lt (h b (mem_cons_self ..)) bs), take_zero,
      drop_zero, nil_append, ih fun c hc => h c (mem_cons_of_mem _ hc)]

end RanGame.Json
