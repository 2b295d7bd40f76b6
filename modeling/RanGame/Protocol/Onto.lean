import RanGame.Protocol.Fields

/-!
# Decoding on top of a message

What was encoded is decoded on top of a message as the merge with it that proto3 defines. What is
written and read back is the message itself up to two things: a floating-point zero outside of
repeated fields loses its sign, because it is not written, and a signalling NaN of 32 bits comes
back as a quiet one.
-/

namespace RanGame.Protocol

open Protowire List Schema

variable {N : Type}

/-! ### The merge of two messages -/

/-- The struct type of the message that a value holds, directly or behind a pointer. -/
def GoType.message : GoType N → Option N
  | .struct m | .ptr (.struct m) => some m
  | _ => none

/-- One slice behind another. -/
def appendElems : Value → Value → Value
  | .slice as, .slice bs => .slice (as ++ bs)
  | _, b => b

mutual

/-- What becomes of an overwritten value: messages are merged, others replaced. -/
def Schema.mergeValue (S : Schema N) : GoType N → Value → Value → Value
  | .struct n, .struct as, .struct bs => .struct (S.mergeFields (S.fields n) as bs)
  | .ptr (.struct n), .ref (.struct as), .ref (.struct bs) =>
    .ref (.struct (S.mergeFields (S.fields n) as bs))
  | _, _, b => b

/-- The merge of proto3: repeated fields are concatenated, others of the second message win unless
zero. -/
def Schema.mergeFields (S : Schema N) : List (FieldDecl N) → List Value → List Value → List Value
  | d :: ds, a :: as, b :: bs =>
    (if d.repeated then appendElems a b
      else if isZeroValue d.ty b then a
      else S.mergeValue d.ty a b) :: S.mergeFields ds as bs
  | _, _, bs => bs

end

mutual

/-- A value as it is read back, inside of a message or as an element of a slice. -/
def Schema.received (S : Schema N) : GoType N → Value → Value
  | .float32, .float bits => .float (quiet32 bits)
  | .slice elem, .slice vs => .slice (S.receivedElems elem vs)
  | .struct n, .struct fs => .struct (S.receivedFields (S.fields n) fs)
  | .ptr (.struct n), .ref (.struct fs) => .ref (.struct (S.receivedFields (S.fields n) fs))
  | _, v => v

/-- The elements of a slice as they are read back. -/
def Schema.receivedElems (S : Schema N) (elem : GoType N) : List Value → List Value
  | [] => []
  | v :: vs => S.received elem v :: S.receivedElems elem vs

/-- The fields of a message as they are read back: one that is zero is not written. -/
def Schema.receivedFields (S : Schema N) : List (FieldDecl N) → List Value → List Value
  | d :: ds, v :: vs =>
    (if !d.repeated && isZeroValue d.ty v then S.zero d.ty else S.received d.ty v)
      :: S.receivedFields ds vs
  | _, vs => vs

end

def Schema.mergeField (S : Schema N) (d : FieldDecl N) (a b : Value) : Value :=
  if d.repeated then appendElems a b
  else if isZeroValue d.ty b then a
  else S.mergeValue d.ty a b

def Schema.receivedField (S : Schema N) (d : FieldDecl N) (v : Value) : Value :=
  if !d.repeated && isZeroValue d.ty v then S.zero d.ty else S.received d.ty v

@[simp] theorem Schema.mergeFields_cons (S : Schema N) (d : FieldDecl N) (ds : List (FieldDecl N))
    (a b : Value) (as bs : List Value) :
    S.mergeFields (d :: ds) (a :: as) (b :: bs) = S.mergeField d a b :: S.mergeFields ds as bs := by
  rw [mergeFields]
  rfl

@[simp] theorem Schema.receivedFields_cons (S : Schema N) (d : FieldDecl N)
    (ds : List (FieldDecl N)) (v : Value) (vs : List Value) :
    S.receivedFields (d :: ds) (v :: vs) = S.receivedField d v :: S.receivedFields ds vs := by
  rw [receivedFields]
  rfl

theorem quiet32_quiet32 (bits : ℕ) : quiet32 (quiet32 bits) = quiet32 bits := by
  unfold quiet32
  split
  · split
    · rw [Nat.or_assoc, Nat.or_self]
    · rfl
  · rfl

theorem quiet32_lt {bits : ℕ} (h : bits < 2 ^ 32) : quiet32 bits < 2 ^ 32 := by
  unfold quiet32
  split
  · exact Nat.or_lt_two_pow h (by decide)
  · exact h

theorem quiet32_mod_eq_zero (bits : ℕ) : quiet32 bits % 2 ^ 31 = 0 ↔ bits % 2 ^ 31 = 0 := by
  unfold quiet32
  split
  next h =>
    have hle : bits % 2 ^ 31 ≤ (bits ||| 0x400000) % 2 ^ 31 := by
      rw [Nat.or_mod_two_pow]
      exact Nat.left_le_or
    omega
  · exact Iff.rfl

namespace Schema

variable (S : Schema N)

theorem length_receivedElems (elem : GoType N) (vs : List Value) :
    (S.receivedElems elem vs).length = vs.length := by
  induction vs with
  | nil => rfl
  | cons v vs ih => rw [receivedElems, length_cons, ih, length_cons]

@[simp] theorem received_nil (ty : GoType N) : S.received ty .nil = .nil := by
  cases ty with
  | ptr t => cases t <;> rfl
  | _ => rfl

theorem isNil_received (ty : GoType N) (v : Value) : (S.received ty v).isNil = v.isNil := by
  unfold received
  split <;> rfl

/-- What is read back is zero if and only if what was written is. -/
theorem isZeroValue_received (ty : GoType N) (v : Value) :
    isZeroValue ty (S.received ty v) = isZeroValue ty v := by
  cases ty with
  | ptr t => exact S.isNil_received (.ptr t) v
  | _ => cases v <;> simp only [received, isZeroValue, length_receivedElems, quiet32_mod_eq_zero]

theorem appendElems_zero (ty : GoType N) (b : Value) : appendElems (S.zero ty) b = b := by
  cases ty with
  | slice elem => cases b <;> rfl
  | struct n => rw [zero_struct]; rfl
  | _ => rfl

theorem isZeroValue_zero {ty : GoType N} {v : Value} (h : isZeroValue ty v = true) :
    isZeroValue ty (S.zero ty) = true := by
  cases ty with
  | struct n => cases v <;> cases h
  | _ => rfl

theorem mergeValue_of_message_none {ty : GoType N} (h : ty.message = none) (a b : Value) :
    S.mergeValue ty a b = b := by
  unfold mergeValue
  split <;> first | rfl | cases h

theorem mergeValue_nil (ty : GoType N) (b : Value) : S.mergeValue ty .nil b = b := by
  unfold mergeValue
  split <;> first | rfl | contradiction

theorem mergeField_zero {d : FieldDecl N} {v : Value}
    (hv : S.mergeValue d.ty (S.zero d.ty) (S.received d.ty v) = S.received d.ty v) :
    S.mergeField d (S.zero d.ty) (S.receivedField d v) = S.receivedField d v := by
  rw [mergeField]
  split
  · exact S.appendElems_zero d.ty _
  next hrep =>
    rcases hz : isZeroValue d.ty v with _ | _
    · have hkept : S.receivedField d v = S.received d.ty v := by simp [receivedField, hz]
      rw [hkept, S.isZeroValue_received, hz]
      exact hv
    · have hkept : S.receivedField d v = S.zero d.ty := by simp [receivedField, hz, hrep]
      rw [hkept, S.isZeroValue_zero hz, if_pos rfl]

mutual

theorem mergeValue_zero : ∀ (ty : GoType N) (v : Value),
    S.mergeValue ty (S.zero ty) (S.received ty v) = S.received ty v
  | .struct n, .struct fs => by
    rw [zero_struct, received, mergeValue, mergeFields_zeros (S.fields n) fs]
  | .struct n, .bool _ | .struct n, .int _ | .struct n, .uint _ | .struct n, .float _
  | .struct n, .string _ | .struct n, .slice _ | .struct n, .nil | .struct n, .ref _ => by
    rw [zero_struct]
    rfl
  | .ptr t, v => S.mergeValue_nil (.ptr t) _
  | .bool, v | .int _, v | .uint _, v | .float32, v | .float64, v | .string, v | .slice _, v =>
    S.mergeValue_of_message_none rfl _ _

theorem mergeFields_zeros : ∀ (ds : List (FieldDecl N)) (vs : List Value),
    S.mergeFields ds (S.zeros ds) (S.receivedFields ds vs) = S.receivedFields ds vs
  | d :: ds, v :: vs => by
    rw [receivedFields_cons, zeros, map_cons, mergeFields_cons, ← zeros,
      mergeFields_zeros ds vs, S.mergeField_zero (mergeValue_zero d.ty v)]
  | [], _ => by simp only [receivedFields, mergeFields]
  | _ :: _, [] => rfl

end

theorem fieldsConform_zeros {ds : List (FieldDecl N)}
    (h : ∀ d ∈ ds, S.conforms d.ty (S.zero d.ty) = true) :
    S.fieldsConform ds (S.zeros ds) = true := by
  induction ds with
  | nil => rfl
  | cons d ds ih =>
    rw [zeros, map_cons, ← zeros, fieldsConform, h d (mem_cons_self ..),
      ih fun e he => h e (mem_cons_of_mem _ he), Bool.and_self]

theorem conforms_zero (ty : GoType N) : S.conforms ty (S.zero ty) = true := by
  induction hk : S.depth ty using Nat.strong_induction_on generalizing ty with
  | _ k ih =>
    cases ty with
    | struct n =>
      rw [zero_struct, conforms]
      exact S.fieldsConform_zeros fun d hd => ih _ (hk ▸ S.depth_lt hd) d.ty rfl
    | int size | uint size => cases size <;> rfl
    | _ => rfl

mutual

theorem conforms_received : ∀ (ty : GoType N) (v : Value), S.conforms ty v = true →
    S.conforms ty (S.received ty v) = true
  | .float32, .float bits, h => by
    simp only [conforms, decide_eq_true_eq] at h
    simpa only [received, conforms, decide_eq_true_eq] using quiet32_lt h
  | .slice elem, .slice vs, h => elemsConform_received elem vs h
  | .struct n, .struct fs, h => fieldsConform_received (S.fields n) fs h
  | .ptr t, .ref v, h => by
    cases t with
    | struct n =>
      cases v with
      | struct fs => exact fieldsConform_received (S.fields n) fs h
      | _ => cases h
    | _ => exact h
  | .ptr t, .nil, h => by rwa [S.received_nil]
  | .bool, .bool _, h | .int _, .int _, h | .uint _, .uint _, h
  | .float64, .float _, h | .string, .string _, h => h

theorem elemsConform_received : ∀ (elem : GoType N) (vs : List Value),
    S.elemsConform elem vs = true → S.elemsConform elem (S.receivedElems elem vs) = true
  | _, [], _ => rfl
  | elem, v :: vs, h => by
    simp only [elemsConform, Bool.and_eq_true] at h
    rw [receivedElems, elemsConform, S.isNil_received, h.1.1, conforms_received elem v h.1.2,
      elemsConform_received elem vs h.2]
    rfl

theorem fieldsConform_received : ∀ (ds : List (FieldDecl N)) (vs : List Value),
    S.fieldsConform ds vs = true → S.fieldsConform ds (S.receivedFields ds vs) = true
  | [], [], _ => rfl
  | d :: ds, v :: vs, h => by
    simp only [fieldsConform, Bool.and_eq_true] at h
    rw [receivedFields_cons, fieldsConform, fieldsConform_received ds vs h.2, Bool.and_true,
      receivedField]
    split
    · exact S.conforms_zero d.ty
    · exact conforms_received d.ty v h.1

end

mutual

theorem received_of_floatFree (hfloat : ∀ n, ∀ d ∈ S.fields n, d.ty.floatFree = true) :
    ∀ (ty : GoType N) (v : Value), ty.floatFree = true → S.conforms ty v = true →
      S.received ty v = v
  | .slice elem, .slice vs, hfree, hv => by
    rw [received, receivedElems_of_floatFree hfloat elem vs hfree hv]
  | .struct n, .struct fs, _, hv => by
    rw [received, receivedFields_of_floatFree hfloat (S.fields n) fs (hfloat n) hv]
  | .ptr t, .ref v, _, hv => by
    cases t with
    | struct n =>
      cases v with
      | struct fs =>
        rw [received, receivedFields_of_floatFree hfloat (S.fields n) fs (hfloat n) hv]
      | _ => rfl
    | _ => rfl
  | .ptr t, .nil, _, _ => S.received_nil (.ptr t)
  | .bool, .bool _, _, _ | .int _, .int _, _, _ | .uint _, .uint _, _, _
  | .string, .string _, _, _ => rfl

theorem receivedElems_of_floatFree (hfloat : ∀ n, ∀ d ∈ S.fields n, d.ty.floatFree = true) :
    ∀ (elem : GoType N) (vs : List Value), elem.floatFree = true →
      S.elemsConform elem vs = true → S.receivedElems elem vs = vs
  | _, [], _, _ => rfl
  | elem, v :: vs, hfree, hv => by
    simp only [elemsConform, Bool.and_eq_true] at hv
    rw [receivedElems, received_of_floatFree hfloat elem v hfree hv.1.2,
      receivedElems_of_floatFree hfloat elem vs hfree hv.2]

theorem receivedFields_of_floatFree (hfloat : ∀ n, ∀ d ∈ S.fields n, d.ty.floatFree = true) :
    ∀ (ds : List (FieldDecl N)) (vs : List Value), (∀ d ∈ ds, d.ty.floatFree = true) →
      S.fieldsConform ds vs = true → S.receivedFields ds vs = vs
  | [], [], _, _ => rfl
  | d :: ds, v :: vs, hfree, hv => by
    simp only [fieldsConform, Bool.and_eq_true] at hv
    have hd := hfree d (mem_cons_self ..)
    have hfield : S.receivedField d v = v := by
      rw [receivedField]
      split
      next hz =>
        simp only [Bool.and_eq_true] at hz
        exact (eq_zero_of_isZeroValue hd hv.1 hz.2).symm
      · exact received_of_floatFree hfloat d.ty v hd hv.1
    rw [receivedFields_cons, hfield, receivedFields_of_floatFree hfloat ds vs
      (fun e he => hfree e (mem_cons_of_mem _ he)) hv.2]

end

end Schema

/-! ### Decoding on top of a message -/

/-- The record of a value is read back onto what is there, and the rest is left. -/
def MergesOnto (S : Schema N) (fn : ℤ) (ft : FieldType) (ty : GoType N) (v : Value) : Prop :=
  ∃ w body, marshalSingleValue S fn ft ty v = .ok (appendTag (number fn) w ++ body) ∧
    (body.length < 2 ^ 64 → ∀ cur rest, S.conforms ty cur = true →
      unmarshalSingle S (unmarshalStruct S) w ty cur (body ++ rest)
        = .ok (S.mergeValue ty cur (S.received ty v), rest))

/-- What `marshalStruct` writes for one field. -/
def marshalOne (S : Schema N) (t : ProtoTag) (ty : GoType N) (v : Value) :
    Except ProtoError Bytes :=
  if t.repeated then marshalRepeated S t.fieldNum t.wireType ty v
  else if isZeroValue ty v then .ok []
  else marshalSingleValue S t.fieldNum t.wireType ty v

/-- The elements of a repeated field are read back onto the end of the slice. -/
def ElemsMerge (S : Schema N) (n : N) (i : ℕ) (t : ProtoTag) (elem : GoType N)
    (vs : List Value) : Prop :=
  ∃ b, marshalElems S t.fieldNum t.wireType elem vs = .ok b ∧
    (b.length < 2 ^ 64 → ∀ rest done acc todo, done.length = i →
      unmarshalStruct S n (b ++ rest) (done ++ .slice acc :: todo)
        = unmarshalStruct S n rest (done ++ .slice (acc ++ S.receivedElems elem vs) :: todo))

/-- Field `i` is read back onto the one that is there. -/
def FieldMerges (S : Schema N) (n : N) (i : ℕ) (t : ProtoTag) (d : FieldDecl N) (v : Value) :
    Prop :=
  ∃ b, marshalOne S t d.ty v = .ok b ∧
    (b.length < 2 ^ 64 → ∀ rest done cur todo, done.length = i → S.conforms d.ty cur = true →
      unmarshalStruct S n (b ++ rest) (done ++ cur :: todo)
        = unmarshalStruct S n rest (done ++ S.mergeField d cur (S.receivedField d v) :: todo))

/-- The fields from `i` on are read back onto the ones that are there. -/
def FieldsMerge (S : Schema N) (n : N) (i : ℕ) (ds : List (FieldDecl N)) (vs : List Value) : Prop :=
  ∃ b, marshalStruct S ds vs = .ok b ∧
    (b.length < 2 ^ 64 → ∀ rest done cur, done.length = i → S.fieldsConform ds cur = true →
      unmarshalStruct S n (b ++ rest) (done ++ cur)
        = unmarshalStruct S n rest (done ++ S.mergeFields ds cur (S.receivedFields ds vs)))

variable {S : Schema N} {n : N} {fs : List Value} {fn : ℤ}

theorem FieldsMerge.decode (h : FieldsMerge S n 0 (S.fields n) fs) :
    ∃ b, marshalStruct S (S.fields n) fs = .ok b ∧
      (b.length < 2 ^ 64 → ∀ cur, S.fieldsConform (S.fields n) cur = true →
        unmarshalStruct S n b cur
          = .ok (S.mergeFields (S.fields n) cur (S.receivedFields (S.fields n) fs))) := by
  obtain ⟨b, hwrite, hread⟩ := h
  refine ⟨b, hwrite, fun hlen cur hcur => ?_⟩
  simpa using hread hlen [] [] cur rfl hcur

theorem mergesOnto_bytes {ty : GoType N} {v : Value} (data : Bytes)
    (hwrite : marshalSingleValue S fn .bytes ty v =
      .ok (appendTag (number fn) .bytes ++ appendBytes data))
    (hread : data.length < 2 ^ 64 → ∀ cur, S.conforms ty cur = true →
      ofBytes S (unmarshalStruct S) ty cur data = .ok (S.mergeValue ty cur (S.received ty v))) :
    MergesOnto S fn .bytes ty v := by
  refine ⟨.bytes, appendBytes data, hwrite, fun hlen cur rest hcur => ?_⟩
  have hdata : data.length < 2 ^ 64 := by
    rw [appendBytes, length_append] at hlen
    omega
  rw [unmarshalSingle, consumeBytes_append hdata]
  simp only [hread hdata cur hcur]
  rfl

theorem MergesOnto.struct (h : FieldsMerge S n 0 (S.fields n) fs) :
    MergesOnto S fn .bytes (.struct n) (.struct fs) := by
  obtain ⟨b, hwrite, hread⟩ := h.decode
  refine mergesOnto_bytes b ?_ fun hlen cur hcur => ?_
  · rw [marshalSingleValue, if_pos rfl, hwrite, messageRecord]
  · rcases cur with _ | _ | _ | _ | _ | _ | cs | _ | _ <;> try cases hcur
    rw [ofBytes, hread hlen cs hcur, received, mergeValue]
    rfl

/-- A message behind a pointer is merged into the one there, or into a new one. -/
theorem MergesOnto.ptr (h : FieldsMerge S n 0 (S.fields n) fs) :
    MergesOnto S fn .bytes (.ptr (.struct n)) (.ref (.struct fs)) := by
  obtain ⟨b, hwrite, hread⟩ := h.decode
  refine mergesOnto_bytes b ?_ fun hlen cur hcur => ?_
  · rw [marshalSingleValue, if_pos rfl, hwrite, messageRecord]
  · rcases cur with _ | _ | _ | _ | _ | _ | _ | _ | (_ | _ | _ | _ | _ | _ | cs | _ | _) <;>
      try cases hcur
    · have hzeros : S.fieldsConform (S.fields n) (S.zeros (S.fields n)) = true :=
        S.fieldsConform_zeros fun d _ => S.conforms_zero d.ty
      rw [ofBytes, hread hlen _ hzeros, S.mergeFields_zeros]
      rfl
    · rw [ofBytes, hread hlen cs hcur]
      rfl

theorem Schema.receivedElems_uint (S : Schema N) (size : IntSize) (vs : List Value) :
    S.receivedElems (.uint size) vs = vs := by
  induction vs with
  | nil => rfl
  | cons v vs ih => rw [receivedElems, ih, received]; all_goals simp

section Assembly

variable {S : SupportedSchema N} {n : N} {pre post : List (FieldDecl N)} {d : FieldDecl N}
  {t : ProtoTag}

variable {v : Value} {vs : List Value}

theorem ElemsMerge.cons {elem : GoType N} (h : S.FieldAt n pre d post t) (hrep : t.repeated = true)
    (hd : d.ty = .slice elem) (hv : MergesOnto S.toSchema t.fieldNum t.wireType elem v)
    (hvs : ElemsMerge S.toSchema n pre.length t elem vs) :
    ElemsMerge S.toSchema n pre.length t elem (v :: vs) := by
  obtain ⟨w, body, hwrite, hread⟩ := hv
  obtain ⟨b, hwrites, hreads⟩ := hvs
  refine ⟨appendTag (number t.fieldNum) w ++ body ++ b, ?_, fun hlen rest done acc todo hdone => ?_⟩
  · rw [marshalElems, hwrite, hwrites, andThen]
  · simp only [length_append] at hlen
    have hfield : unmarshalField S.toSchema (unmarshalStruct S.toSchema) w d.ty t.repeated
        (.slice acc) (body ++ (b ++ rest))
          = .ok (.slice (acc ++ [S.received elem v]), b ++ rest) := by
      rw [unmarshalField, if_pos hrep, hd, unmarshalRepeated,
        hread (by omega) _ _ (S.conforms_zero elem), S.mergeValue_zero]
      rfl
    simp only [append_assoc]
    rw [unmarshalStruct_store h hdone hfield, hreads (by omega) rest done _ todo hdone,
      append_assoc, singleton_append, receivedElems]

theorem FieldMerges.single (h : S.FieldAt n pre d post t) (hrep : t.repeated = false)
    (hv : isZeroValue d.ty v = false → MergesOnto S.toSchema t.fieldNum t.wireType d.ty v) :
    FieldMerges S.toSchema n pre.length t d v := by
  have hdrep : d.repeated = false := h.repeated_eq.trans hrep
  rcases hz : isZeroValue d.ty v with _ | _
  · obtain ⟨w, body, hwrite, hread⟩ := hv hz
    refine ⟨appendTag (number t.fieldNum) w ++ body, ?_,
      fun hlen rest done cur todo hdone hcur => ?_⟩
    · rw [marshalOne, hrep, hz, hwrite]
      rfl
    · have hmerge : S.mergeField d cur (S.receivedField d v)
          = S.mergeValue d.ty cur (S.received d.ty v) := by
        simp [mergeField, receivedField, hdrep, hz, S.isZeroValue_received]
      have hfield : unmarshalField S.toSchema (unmarshalStruct S.toSchema) w d.ty t.repeated
          cur (body ++ rest) = .ok (S.mergeField d cur (S.receivedField d v), rest) := by
        rw [length_append] at hlen
        rw [unmarshalField, hrep, hmerge]
        exact hread (by omega) cur rest hcur
      rw [append_assoc, unmarshalStruct_store h hdone hfield]
  · refine ⟨[], ?_, fun _ rest done cur todo _ _ => ?_⟩
    · rw [marshalOne, hrep, hz]
      rfl
    · have hmerge : S.mergeField d cur (S.receivedField d v) = cur := by
        simp [mergeField, receivedField, hdrep, hz, S.isZeroValue_zero hz]
      rw [nil_append, hmerge]

theorem FieldMerges.repeated {elem : GoType N} (h : S.FieldAt n pre d post t)
    (hrep : t.repeated = true) (hd : d.ty = .slice elem)
    (hvs : ElemsMerge S.toSchema n pre.length t elem vs) :
    FieldMerges S.toSchema n pre.length t d (.slice vs) := by
  have hdrep : d.repeated = true := h.repeated_eq.trans hrep
  obtain ⟨b, hwrite, hread⟩ := hvs
  refine ⟨b, ?_, fun hlen rest done cur todo hdone hcur => ?_⟩
  · rw [marshalOne, if_pos hrep, hd, marshalRepeated, hwrite]
  · rw [hd] at hcur
    rcases cur with _ | _ | _ | _ | _ | acc | _ | _ | _ <;> try cases hcur
    rw [hread hlen rest done acc todo hdone, mergeField, if_pos hdrep,
      receivedField, hdrep, hd, Bool.not_true, Bool.false_and]
    rfl

theorem FieldsMerge.cons {ds : List (FieldDecl N)} (h : S.FieldAt n pre d ds t)
    (hv : FieldMerges S.toSchema n pre.length t d v)
    (hvs : FieldsMerge S.toSchema n (pre.length + 1) ds vs) :
    FieldsMerge S.toSchema n pre.length (d :: ds) (v :: vs) := by
  obtain ⟨b, hwrite, hread⟩ := hv
  obtain ⟨bs, hwrites, hreads⟩ := hvs
  have hskip : ¬(d.tag = "" || !d.exported) = true := by
    simp [FieldDecl.tag_ne_empty h.parse, h.supported.1]
  refine ⟨b ++ bs, ?_, fun hlen rest done cur hdone hcur => ?_⟩
  · rw [marshalOne] at hwrite
    rw [marshalStruct, if_neg hskip, h.parse]
    simp only [hwrite, hwrites, andThen]
  · rcases cur with _ | ⟨c, cs⟩
    · cases hcur
    simp only [fieldsConform, Bool.and_eq_true] at hcur
    rw [length_append] at hlen
    have hrest := hreads (by omega) rest (done ++ [S.mergeField d c (S.receivedField d v)]) cs
      (by simp [hdone]) hcur.2
    rw [append_assoc, hread (by omega) (bs ++ rest) done c cs hdone hcur.1]
    simpa using hrest

end Assembly

mutual

theorem mergesOnto_single (S : SupportedSchema N) {fn : ℤ} {ft : FieldType} :
    ∀ (ty : GoType N) (v : Value), ft.fits ty = true → S.conforms ty v = true →
      v.isNil = false → MergesOnto S.toSchema fn ft ty v
  | .struct n, .struct fs, hfit, hv, _ => by
    obtain rfl : ft = .bytes := by cases ft <;> trivial
    exact .struct (mergesOnto_fields S n fs [] _ rfl hv)
  | .ptr t, .ref v, hfit, hv, _ => by
    obtain ⟨rfl, n, rfl⟩ : ft = .bytes ∧ ∃ n, t = .struct n := by
      unfold FieldType.fits at hfit
      split at hfit <;> simp_all
    rcases v with _ | _ | _ | _ | _ | _ | fs | _ | _ <;> try cases hv
    exact .ptr (mergesOnto_fields S n fs [] _ rfl hv)
  | .string, .string s, hfit, _, _ => by
    obtain rfl : ft = .bytes := by cases ft <;> trivial
    refine mergesOnto_bytes s rfl fun _ cur _ => ?_
    rw [ofBytes, S.mergeValue_of_message_none rfl, received]
    all_goals simp
  | .slice elem, .slice vs, hfit, hv, _ => by
    obtain ⟨rfl, rfl⟩ : ft = .bytes ∧ elem = .uint .w8 := by
      unfold FieldType.fits at hfit
      split at hfit <;> simp_all
    refine mergesOnto_bytes (vs.map byteOf) rfl fun _ cur _ => ?_
    rw [ofBytes, map_byteOf hv, S.mergeValue_of_message_none rfl, received,
      S.receivedElems_uint]
  | .float64, .float bits, hfit, hv, _ => by
    obtain rfl : ft = .fixed64 := by cases ft <;> trivial
    have hbits : bits < 256 ^ 8 := by simpa [conforms] using hv
    refine ⟨.fixed64, appendFixed 8 bits, rfl, fun _ cur rest _ => ?_⟩
    rw [unmarshalSingle, consumeFixed_append hbits, S.mergeValue_of_message_none rfl]
    rfl
  | .float32, .float bits, hfit, hv, _ => by
    obtain rfl : ft = .fixed32 := by cases ft <;> trivial
    have hbits : quiet32 bits < 256 ^ 4 := quiet32_lt (of_decide_eq_true hv)
    refine ⟨.fixed32, appendFixed 4 (quiet32 bits), rfl, fun _ cur rest _ => ?_⟩
    rw [unmarshalSingle, consumeFixed_append hbits, S.mergeValue_of_message_none rfl]
    simp only [quiet32_quiet32]
    rfl
  | .bool, v, hfit, hv, _ | .int _, v, hfit, hv, _ | .uint _, v, hfit, hv, _ => by
    obtain rfl : ft = .varint := by cases ft <;> trivial
    obtain ⟨k, hk, hwrite, hread⟩ := ofVarint_varintOf rfl hv
    refine ⟨.varint, appendVarint k, ?_, fun _ cur rest _ => ?_⟩
    · cases v <;> simp only [marshalSingleValue, marshalScalar, hwrite]
    · rw [unmarshalSingle, consumeVarint_append hk, S.mergeValue_of_message_none rfl]
      simp only [hread]
      cases v <;> rfl

theorem mergesOnto_elems (S : SupportedSchema N) {n : N} {pre post : List (FieldDecl N)}
    {d : FieldDecl N} {t : ProtoTag} {elem : GoType N} (h : S.FieldAt n pre d post t)
    (hrep : t.repeated = true) (hd : d.ty = .slice elem) :
    ∀ vs : List Value, S.elemsConform elem vs = true → ElemsMerge S.toSchema n pre.length t elem vs
  | [], _ => ⟨[], rfl, fun _ _ _ _ _ _ => by simp [receivedElems]⟩
  | v :: vs, hv => by
    simp only [elemsConform, Bool.and_eq_true, Bool.not_eq_true'] at hv
    obtain ⟨⟨hnil, hv⟩, hvs⟩ := hv
    exact .cons h hrep hd (mergesOnto_single S elem v (fits_elem h hrep hd) hv hnil)
      (mergesOnto_elems S h hrep hd vs hvs)

theorem mergesOnto_fields (S : SupportedSchema N) (n : N) :
    ∀ (vs : List Value) (pre ds : List (FieldDecl N)), S.fields n = pre ++ ds →
      S.fieldsConform ds vs = true → FieldsMerge S.toSchema n pre.length ds vs
  | [], _, [], _, _ => ⟨[], rfl, fun _ rest done cur _ hcur => by
      cases cur with
      | nil => rfl
      | cons c cs => cases hcur⟩
  | v :: vs, pre, d :: ds, hsplit, hv => by
    simp only [fieldsConform, Bool.and_eq_true] at hv
    obtain ⟨t, h⟩ := S.exists_fieldAt hsplit
    have hvs := mergesOnto_fields S n vs (pre ++ [d]) ds (by simp [hsplit]) hv.2
    rw [length_append, length_singleton] at hvs
    refine .cons h ?_ hvs
    have hfit := h.supported.2.1
    rcases hrep : t.repeated with _ | _
    · refine .single h hrep fun hz => ?_
      have hnil : v.isNil = false := not_isNil_of_isZeroValue hv.1 hz
      exact mergesOnto_single S d.ty v (by simpa [ProtoTag.fits, hrep] using hfit) hv.1 hnil
    · obtain ⟨elem, hd⟩ := h.exists_slice hrep
      obtain ⟨hv, -⟩ := hv
      rw [hd] at hv
      rcases v with _ | _ | _ | _ | _ | ws | _ | _ | _ <;> try cases hv
      exact .repeated h hrep hd (mergesOnto_elems S h hrep hd ws hv)

end

end RanGame.Protocol
