import RanGame.Lib.Bytes

/-!
# The protobuf wire format

The primitives of protobuf encoders and decoders: base-128 varints, little-endian fixed-width
integers, length-delimited byte strings, tags, and skipping the value of an unknown field. A reader
takes the bytes that are left and returns the value with the bytes after it, or the way in which the
input is malformed. Field numbers are 32-bit signed, values 64-bit unsigned.
-/

namespace RanGame.Protowire

open List

inductive WireError
  | truncated
  | overflow
  | fieldNumber
  | reserved
  | endGroup
  | recursionDepth
  deriving DecidableEq, Repr

/-- The value and the bytes that are left, or an error. -/
abbrev Consumed (α : Type) := Except WireError (α × Bytes)

/-! ### Varints -/

/-- `n` in base 128, least significant digit first, in at most `k + 1` bytes. -/
def varintBytes : ℕ → ℕ → Bytes
  | 0, n => [UInt8.ofNat n]
  | k + 1, n =>
    if n < 128 then [UInt8.ofNat n] else UInt8.ofNat (n % 128 + 128) :: varintBytes k (n / 128)

/-- Read a varint of at most `k + 1` bytes, the last of which may only be `0` or `1`. -/
def varintFrom : ℕ → Bytes → Consumed ℕ
  | _, [] => .error .truncated
  | 0, b :: bs => if b.toNat < 2 then .ok (b.toNat, bs) else .error .overflow
  | k + 1, b :: bs =>
    if b.toNat < 128 then .ok (b.toNat, bs)
    else
      match varintFrom k bs with
      | .error e => .error e
      | .ok (n, rest) => .ok (b.toNat - 128 + 128 * n, rest)

def appendVarint (n : ℕ) : Bytes := varintBytes 9 n

def consumeVarint (b : Bytes) : Consumed ℕ := varintFrom 9 b

variable {n k : ℕ} {b rest v : Bytes} {num : ℤ} {α : Type} {x : Consumed α}
  {group : ℤ → Bytes → Except WireError Bytes} {t : WireType}

theorem toNat_ofNat_byte (h : n < 256) : (UInt8.ofNat n).toNat = n := UInt8.toNat_ofNat_of_lt' h

theorem varintFrom_append (h : n < 2 * 128 ^ k) (rest : Bytes) :
    varintFrom k (varintBytes k n ++ rest) = .ok (n, rest) := by
  induction k generalizing n with
  | zero =>
    have hn : (UInt8.ofNat n).toNat = n := toNat_ofNat_byte (by omega)
    rw [varintBytes, singleton_append, varintFrom, hn, if_pos (by omega)]
  | succ k ih =>
    by_cases hn : n < 128
    · have hb : (UInt8.ofNat n).toNat = n := toNat_ofNat_byte (by omega)
      rw [varintBytes, if_pos hn, singleton_append, varintFrom, hb, if_pos hn]
    · have hb : (UInt8.ofNat (n % 128 + 128)).toNat = n % 128 + 128 := toNat_ofNat_byte (by omega)
      rw [varintBytes, if_neg hn, cons_append, varintFrom, hb, if_neg (by omega),
        ih (Nat.div_lt_of_lt_mul (by rw [pow_succ] at h; omega))]
      have hsplit : n % 128 + 128 - 128 + 128 * (n / 128) = n := by omega
      simp only [hsplit]

theorem consumeVarint_append (h : n < 2 ^ 64) (rest : Bytes) :
    consumeVarint (appendVarint n ++ rest) = .ok (n, rest) :=
  varintFrom_append (by norm_num at h ⊢; exact h) rest

theorem length_varintBytes (k n : ℕ) : (varintBytes k n).length ≤ k + 1 := by
  induction k generalizing n with
  | zero => exact le_rfl
  | succ k ih =>
    rw [varintBytes]
    split
    · exact Nat.succ_le_succ (Nat.zero_le _)
    · exact Nat.succ_le_succ (ih (n / 128))

theorem length_appendVarint (n : ℕ) : (appendVarint n).length ≤ 10 := length_varintBytes 9 n

theorem length_of_varintFrom (h : varintFrom k b = .ok (n, rest)) : rest.length < b.length := by
  induction k, b using varintFrom.induct generalizing n with
  | case1 => simp [varintFrom] at h
  | case2 | case3 | case4 k b bs hb => grind [varintFrom]
  | case5 k b bs hb e he => simp [varintFrom, hb, he] at h
  | case6 k b bs hb m r hr ih => grind [varintFrom]

theorem length_of_consumeVarint (h : consumeVarint b = .ok (n, rest)) : rest.length < b.length :=
  length_of_varintFrom h

/-- The `k` low bytes of `n`, least significant first. -/
def appendFixed (k n : ℕ) : Bytes := (toBE k n).reverse

/-- Read a `k`-byte little-endian integer. -/
def consumeFixed (k : ℕ) (b : Bytes) : Consumed ℕ :=
  if b.length < k then .error .truncated else .ok (ofBE (b.take k).reverse, b.drop k)

theorem consumeFixed_append (h : n < 256 ^ k) (rest : Bytes) :
    consumeFixed k (appendFixed k n ++ rest) = .ok (n, rest) := by
  have hlen : (appendFixed k n).length = k := by simp [appendFixed]
  rw [consumeFixed, if_neg (by rw [length_append]; omega), take_left' hlen,
    drop_left' hlen, appendFixed, reverse_reverse, ofBE_toBE_of_lt h]

theorem length_of_consumeFixed (h : consumeFixed k b = .ok (n, rest)) : rest.length ≤ b.length := by
  grind [consumeFixed]

/-- A byte string behind its length. -/
def appendBytes (v : Bytes) : Bytes := appendVarint v.length ++ v

def consumeBytes (b : Bytes) : Consumed Bytes :=
  match consumeVarint b with
  | .error e => .error e
  | .ok (m, rest) =>
    if m > rest.length then .error .truncated else .ok (rest.take m, rest.drop m)

theorem consumeBytes_append (h : v.length < 2 ^ 64) (rest : Bytes) :
    consumeBytes (appendBytes v ++ rest) = .ok (v, rest) := by
  rw [consumeBytes, appendBytes, append_assoc, consumeVarint_append h]
  simp

/-- The string read and what follows it are both parts of the input, behind at least one byte. -/
theorem length_of_consumeBytes (h : consumeBytes b = .ok (v, rest)) :
    v.length + rest.length < b.length := by
  rw [consumeBytes] at h
  split at h
  · cases h
  next m r hm =>
    have := length_of_consumeVarint hm
    split at h <;> cases h
    · simp only [length_take, length_drop]
      omega

/-! ### Tags -/

/-- How the value of a record is written. Two of the eight codes mean nothing. -/
inductive WireType
  | varint
  | fixed64
  | bytes
  | startGroup
  | endGroup
  | fixed32
  | reserved6
  | reserved7
  deriving DecidableEq, Repr

/-- The code of a wire type, three bits. -/
def WireType.code : WireType → ℕ
  | .varint => 0
  | .fixed64 => 1
  | .bytes => 2
  | .startGroup => 3
  | .endGroup => 4
  | .fixed32 => 5
  | .reserved6 => 6
  | .reserved7 => 7

def WireType.ofCode : ℕ → WireType
  | 0 => .varint
  | 1 => .fixed64
  | 2 => .bytes
  | 3 => .startGroup
  | 4 => .endGroup
  | 5 => .fixed32
  | 6 => .reserved6
  | _ => .reserved7

@[simp] theorem WireType.ofCode_code (t : WireType) : ofCode t.code = t := by
  cases t <;> rfl

theorem WireType.code_lt (t : WireType) : t.code < 8 := by
  cases t <;> decide

/-- The tag of a record: field number and wire type in one varint. -/
def appendTag (num : ℤ) (t : WireType) : Bytes := appendVarint ((num * 8 + t.code) % 2 ^ 64).toNat

/-- Read a tag. Field numbers below one, or too large for 32 bits, are malformed. -/
def consumeTag (b : Bytes) : Consumed (ℤ × WireType) :=
  match consumeVarint b with
  | .error e => .error e
  | .ok (v, rest) =>
    if v / 8 > 2 ^ 31 - 1 ∨ v / 8 < 1 then .error .fieldNumber
    else .ok (((v / 8 : ℕ), .ofCode (v % 8)), rest)

theorem consumeTag_append (h₁ : 1 ≤ num) (h₂ : num < 2 ^ 31) (t : WireType) (rest : Bytes) :
    consumeTag (appendTag num t ++ rest) = .ok ((num, t), rest) := by
  have ht := t.code_lt
  have hv : ((num * 8 + t.code) % 2 ^ 64).toNat = num.toNat * 8 + t.code := by omega
  rw [consumeTag, appendTag, hv, consumeVarint_append (by omega)]
  have hnum : ((num.toNat * 8 + t.code) / 8 : ℕ) = num.toNat := by omega
  have hcode : (num.toNat * 8 + t.code) % 8 = t.code := by omega
  simp only [hnum, hcode, WireType.ofCode_code]
  rw [if_neg (by omega), Int.toNat_of_nonneg (by omega)]

theorem length_appendTag (num : ℤ) (t : WireType) : (appendTag num t).length ≤ 10 :=
  length_appendVarint _

theorem appendTag_ne_nil (num : ℤ) (t : WireType) : appendTag num t ≠ [] := by
  rw [appendTag, appendVarint, varintBytes]
  split <;> exact cons_ne_nil _ _

theorem length_of_consumeTag {p : ℤ × WireType} (h : consumeTag b = .ok (p, rest)) :
    rest.length < b.length := by
  rw [consumeTag] at h
  split at h
  · cases h
  next hv =>
    split at h <;> cases h
    · exact length_of_consumeVarint hv

/-! ### Skipping a value -/

/-- Skip one value of wire type `t`; `group` skips the body of a group. -/
def skipValue (group : ℤ → Bytes → Except WireError Bytes) (num : ℤ) (t : WireType) (b : Bytes) :
    Except WireError Bytes :=
  match t with
  | .varint => (consumeVarint b).map Prod.snd
  | .fixed32 => (consumeFixed 4 b).map Prod.snd
  | .fixed64 => (consumeFixed 8 b).map Prod.snd
  | .bytes => (consumeBytes b).map Prod.snd
  | .startGroup => group num b
  | .endGroup => .error .endGroup
  | .reserved6 | .reserved7 => .error .reserved

/-- Skip a group to its end marker, with groups nested `depth` deep. A budget of `b.length` records
is enough. -/
def consumeGroup : ℕ → ℕ → ℤ → Bytes → Except WireError Bytes
  | 0, _, _, _ => .error .truncated
  | k + 1, depth, num, b =>
    match consumeTag b with
    | .error e => .error e
    | .ok ((num₂, t₂), b) =>
      if t₂ = .endGroup then if num ≠ num₂ then .error .endGroup else .ok b
      else
        match skipValue (fun n b => if depth = 0 then .error .recursionDepth
            else consumeGroup k (depth - 1) n b) num₂ t₂ b with
        | .error e => .error e
        | .ok b => consumeGroup k depth num b

/-- Skip the value of a record whose tag has been read. -/
def consumeFieldValue (num : ℤ) (t : WireType) (b : Bytes) : Except WireError Bytes :=
  skipValue (consumeGroup b.length 10000) num t b

theorem length_of_map_snd (hx : ∀ a r, x = .ok (a, r) → r.length ≤ b.length)
    (h : x.map Prod.snd = .ok rest) : rest.length ≤ b.length := by
  rcases x with e | ⟨a, r⟩
  · cases h
  · cases h
    exact hx a _ rfl

theorem length_of_skipValue (hgroup : ∀ n r, group n b = .ok r → r.length ≤ b.length)
    (h : skipValue group num t b = .ok rest) : rest.length ≤ b.length := by
  cases t with
  | varint => exact length_of_map_snd (fun _ _ hx => (length_of_consumeVarint hx).le) h
  | fixed32 | fixed64 => exact length_of_map_snd (fun _ _ hx => length_of_consumeFixed hx) h
  | bytes => exact length_of_map_snd (fun _ _ hx => by have := length_of_consumeBytes hx; omega) h
  | startGroup => exact hgroup num rest h
  | endGroup | reserved6 | reserved7 => cases h

theorem length_of_consumeGroup {depth : ℕ} (h : consumeGroup k depth num b = .ok rest) :
    rest.length ≤ b.length := by
  induction k generalizing depth num b rest with
  | zero => cases h
  | succ k ih =>
    rw [consumeGroup] at h
    split at h
    · cases h
    rename_i num₂ t₂ b₁ htag
    have htag := length_of_consumeTag htag
    split at h
    · -- the end marker of this group
      split at h <;> cases h
      · exact htag.le
    split at h
    · cases h
    rename_i b₂ hskip
    have hskip : b₂.length ≤ b₁.length := by
      refine length_of_skipValue (fun n r hr => ?_) hskip
      split at hr
      · cases hr
      · exact ih hr
    have := ih h
    omega

theorem length_of_consumeFieldValue (h : consumeFieldValue num t b = .ok rest) :
    rest.length ≤ b.length :=
  length_of_skipValue (fun _ _ hr => length_of_consumeGroup hr) h

/-! ### More input

A reader that succeeds never looked past what it used. -/

theorem varintFrom_of_ok (h : varintFrom k b = .ok (n, rest)) (more : Bytes) :
    varintFrom k (b ++ more) = .ok (n, rest ++ more) := by
  induction k, b using varintFrom.induct generalizing n with
  | case1 => simp [varintFrom] at h
  | case2 b bs hb =>
    simp only [varintFrom, if_pos hb] at h
    cases h
    simp only [cons_append, varintFrom, if_pos hb]
  | case3 b bs hb => simp [varintFrom, hb] at h
  | case4 k b bs hb =>
    simp only [varintFrom, if_pos hb] at h
    cases h
    simp only [cons_append, varintFrom, if_pos hb]
  | case5 k b bs hb e he => simp [varintFrom, hb, he] at h
  | case6 k b bs hb m r hr ih =>
    simp only [varintFrom, if_neg hb, hr] at h
    cases h
    simp only [cons_append, varintFrom, if_neg hb, ih hr]

theorem consumeVarint_of_ok (h : consumeVarint b = .ok (n, rest)) (more : Bytes) :
    consumeVarint (b ++ more) = .ok (n, rest ++ more) :=
  varintFrom_of_ok h more

theorem consumeFixed_of_ok (h : consumeFixed k b = .ok (n, rest)) (more : Bytes) :
    consumeFixed k (b ++ more) = .ok (n, rest ++ more) := by
  rw [consumeFixed] at h ⊢
  split at h <;> cases h
  · rw [if_neg (by rw [length_append]; omega), take_append_of_le_length (by omega),
      drop_append_of_le_length (by omega)]

theorem consumeBytes_of_ok (h : consumeBytes b = .ok (v, rest)) (more : Bytes) :
    consumeBytes (b ++ more) = .ok (v, rest ++ more) := by
  rw [consumeBytes] at h
  split at h
  · cases h
  next m r hm =>
    split at h <;> cases h
    · rw [consumeBytes, consumeVarint_of_ok hm]
      simp only
      rw [if_neg (by rw [length_append]; omega), take_append_of_le_length (by omega),
        drop_append_of_le_length (by omega)]

theorem consumeTag_of_ok {p : ℤ × WireType} (h : consumeTag b = .ok (p, rest)) (more : Bytes) :
    consumeTag (b ++ more) = .ok (p, rest ++ more) := by
  rw [consumeTag] at h
  split at h
  · cases h
  next v r hv =>
    rw [consumeTag, consumeVarint_of_ok hv]
    simp only
    split at h <;> cases h
    next hnum => rw [if_neg hnum]

theorem map_snd_eq_ok (h : x.map Prod.snd = .ok rest) : ∃ a, x = .ok (a, rest) := by
  rcases x with e | ⟨a, r⟩
  · cases h
  · cases h
    exact ⟨a, rfl⟩

theorem map_snd_of_ok {y : Consumed α} {more : Bytes}
    (hx : ∀ a r, x = .ok (a, r) → y = .ok (a, r ++ more)) (h : x.map Prod.snd = .ok rest) :
    y.map Prod.snd = .ok (rest ++ more) := by
  obtain ⟨a, ha⟩ := map_snd_eq_ok h
  rw [hx a rest ha]
  rfl

theorem skipValue_of_ok {group' : ℤ → Bytes → Except WireError Bytes} {more : Bytes}
    (hgroup : ∀ r, group num b = .ok r → group' num (b ++ more) = .ok (r ++ more))
    (h : skipValue group num t b = .ok rest) :
    skipValue group' num t (b ++ more) = .ok (rest ++ more) := by
  cases t with
  | varint => exact map_snd_of_ok (fun _ _ hx => consumeVarint_of_ok hx more) h
  | fixed32 | fixed64 => exact map_snd_of_ok (fun _ _ hx => consumeFixed_of_ok hx more) h
  | bytes => exact map_snd_of_ok (fun _ _ hx => consumeBytes_of_ok hx more) h
  | startGroup => exact hgroup rest h
  | endGroup | reserved6 | reserved7 => cases h

theorem consumeGroup_of_ok {depth : ℕ} (h : consumeGroup k depth num b = .ok rest) (more : Bytes)
    {j : ℕ} (hj : k ≤ j) : consumeGroup j depth num (b ++ more) = .ok (rest ++ more) := by
  induction k generalizing depth num b rest j with
  | zero => cases h
  | succ k ih =>
    obtain ⟨j, rfl⟩ : ∃ i, j = i + 1 := ⟨j - 1, by omega⟩
    rw [consumeGroup] at h
    split at h
    · cases h
    rename_i num₂ t₂ b₁ htag
    rw [consumeGroup, consumeTag_of_ok htag]
    simp only
    split at h
    · -- the end marker of this group
      rename_i hend
      rw [if_pos hend]
      split at h <;> cases h
      next hnum => rw [if_neg hnum]
    rename_i hend
    rw [if_neg hend]
    split at h
    · cases h
    rename_i b₂ hskip
    have hskip' : skipValue (fun n b => if depth = 0 then .error .recursionDepth
        else consumeGroup j (depth - 1) n b) num₂ t₂ (b₁ ++ more) = .ok (b₂ ++ more) := by
      refine skipValue_of_ok (fun r hr => ?_) hskip
      split at hr
      · cases hr
      next hdepth =>
        rw [if_neg hdepth]
        exact ih hr (by omega)
    rw [hskip']
    exact ih h (by omega)

theorem consumeFieldValue_of_ok (h : consumeFieldValue num t b = .ok rest) (more : Bytes) :
    consumeFieldValue num t (b ++ more) = .ok (rest ++ more) :=
  skipValue_of_ok (fun _ hr => consumeGroup_of_ok hr more (by rw [length_append]; omega)) h

/-- `r` is one record of this number and type: a tag and a value. -/
def IsRecord (num : ℤ) (t : WireType) (r : Bytes) : Prop :=
  ∃ body, consumeTag r = .ok ((num, t), body) ∧ consumeFieldValue num t body = .ok []

/-- A sequence of well-formed records. -/
inductive Records : Bytes → Prop
  | nil : Records []
  | cons {num : ℤ} {t : WireType} {r x : Bytes} (head : IsRecord num t r) (tail : Records x) :
    Records (r ++ x)

theorem IsRecord.ne_nil {r : Bytes} (h : IsRecord num t r) : r ≠ [] := by
  rintro rfl
  obtain ⟨body, htag, -⟩ := h
  exact absurd (length_of_consumeTag htag) (Nat.not_lt_zero _)

end RanGame.Protowire
