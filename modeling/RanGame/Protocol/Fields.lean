import RanGame.Protocol.Codec

/-!
# Fields, and the records they are read from

The encoder recurses over the value and the decoder over the input. They meet in one record: the
encoder writes a tag and a body, and the decoder, having read the tag, stores what the body stands
for and goes on behind it.
-/

namespace RanGame.Protocol

open Protowire List

variable {N : Type}

/-! ### Fields and their numbers -/

theorem number_of_valid {fn : ℤ} (h₁ : 1 ≤ fn) (h₂ : fn < 2 ^ 29) : number fn = fn :=
  Int.bmod_eq_of_le (by omega) (by omega)

/-- Field `d`, with tag `t`, stands between `pre` and `post` in the struct type `n`. -/
structure SupportedSchema.FieldAt (S : SupportedSchema N) (n : N) (pre : List (FieldDecl N))
    (d : FieldDecl N) (post : List (FieldDecl N)) (t : ProtoTag) : Prop where
  split : S.fields n = pre ++ d :: post
  parse : parseProtoTag d.tag = .ok t

variable {d : FieldDecl N} {t : ProtoTag}

theorem FieldDecl.protoTag_of_parse (h : parseProtoTag d.tag = .ok t) : d.protoTag = some t := by
  rw [protoTag, h]
  rfl

theorem FieldDecl.parse_of_protoTag (h : d.protoTag = some t) : parseProtoTag d.tag = .ok t := by
  rw [protoTag] at h
  rcases hp : parseProtoTag d.tag with e | t'
  · rw [hp] at h
    cases h
  · rw [hp] at h
    cases h
    rfl

theorem FieldDecl.tag_ne_empty (h : parseProtoTag d.tag = .ok t) : d.tag ≠ "" := by
  intro hd
  rw [hd, show parseProtoTag "" = .error .short from by decide] at h
  cases h

theorem SupportedSchema.exists_fieldAt (S : SupportedSchema N) {n : N} {pre post}
    (h : S.fields n = pre ++ d :: post) : ∃ t, S.FieldAt n pre d post t := by
  have hd := S.supported n d (by rw [h]; simp)
  rw [FieldDecl.supported] at hd
  rcases ht : d.protoTag with _ | t
  · simp [ht] at hd
  · exact ⟨t, h, FieldDecl.parse_of_protoTag ht⟩

namespace SupportedSchema.FieldAt

variable {S : SupportedSchema N} {n : N} {pre post : List (FieldDecl N)} {d : FieldDecl N}
  {t : ProtoTag}

variable (h : S.FieldAt n pre d post t)

include h

theorem supported :
    d.exported = true ∧ t.fits d.ty = true ∧ 1 ≤ t.fieldNum ∧ t.fieldNum < 2 ^ 29 := by
  have hd := S.supported n d (by rw [h.split]; simp)
  simpa [FieldDecl.supported, FieldDecl.protoTag_of_parse h.parse, and_assoc] using hd

theorem number_eq : number t.fieldNum = t.fieldNum :=
  number_of_valid h.supported.2.2.1 h.supported.2.2.2

theorem repeated_eq : d.repeated = t.repeated := by
  rw [FieldDecl.repeated, h.parse]

theorem exists_slice (hrep : t.repeated = true) : ∃ elem, d.ty = .slice elem := by
  have hfit := h.supported.2.1
  unfold ProtoTag.fits at hfit
  rw [if_pos hrep] at hfit
  split at hfit
  · exact ⟨_, ‹_›⟩
  · cases hfit

theorem ne_of_mem_post {e : FieldDecl N} (he : e ∈ post) {u : ProtoTag}
    (hu : parseProtoTag e.tag = .ok u) : number u.fieldNum ≠ t.fieldNum := by
  obtain ⟨a, b, rfl⟩ := append_of_mem he
  have hat : S.FieldAt n (pre ++ d :: a) e b u := ⟨by rw [h.split]; simp, hu⟩
  have hnodup := S.nodup n
  rw [h.split, map_append, map_cons] at hnodup
  have hnot := (nodup_cons.mp (nodup_append.mp hnodup).2.1).1
  rw [hat.number_eq]
  intro heq
  refine hnot (mem_map.mpr ⟨e, he, ?_⟩)
  rw [FieldDecl.protoTag_of_parse hu, FieldDecl.protoTag_of_parse h.parse, Option.map_some,
    Option.map_some, heq]

end SupportedSchema.FieldAt

theorem fieldMap_append (pre ds : List (FieldDecl N)) (i : ℕ) (m : ℤ → Option ℕ) :
    fieldMap (pre ++ ds) i m = fieldMap ds (i + pre.length) (fieldMap pre i m) := by
  induction pre generalizing i m with
  | nil => rfl
  | cons d pre ih =>
    rw [cons_append, fieldMap, ih, fieldMap, length_cons, Nat.add_assoc, Nat.add_comm 1]

theorem fieldMap_of_forall_ne {ds : List (FieldDecl N)} {num : ℤ}
    (h : ∀ d ∈ ds, ∀ t, parseProtoTag d.tag = .ok t → number t.fieldNum ≠ num) (i : ℕ)
    (m : ℤ → Option ℕ) : fieldMap ds i m num = m num := by
  induction ds generalizing i m with
  | nil => rfl
  | cons d ds ih =>
    rw [fieldMap, ih fun e he => h e (mem_cons_of_mem _ he)]
    split
    · rfl
    · rcases ht : parseProtoTag d.tag with e | t
      · rfl
      · exact Function.update_of_ne (h d (mem_cons_self ..) t ht).symm _ _

section Store

variable {S : SupportedSchema N} {n : N} {pre post : List (FieldDecl N)} {d : FieldDecl N}
  {t : ProtoTag}

theorem fits_elem (h : S.FieldAt n pre d post t) {elem : GoType N} (hrep : t.repeated = true)
    (hd : d.ty = .slice elem) : t.wireType.fits elem = true := by
  simpa [ProtoTag.fits, hrep, hd] using h.supported.2.1

/-- **A field number leads back to its field.** -/
theorem fieldIndex_of_fieldAt (h : S.FieldAt n pre d post t) :
    fieldIndex (S.fields n) t.fieldNum = some pre.length := by
  rw [fieldIndex, h.split, fieldMap_append, fieldMap,
    fieldMap_of_forall_ne fun e he u hu => h.ne_of_mem_post he hu,
    if_neg (FieldDecl.tag_ne_empty h.parse)]
  simp only [h.parse, h.number_eq, Function.update_self, Nat.zero_add]

theorem unmarshalStruct_tag (h : S.FieldAt n pre d post t) (w : WireType) (body : Bytes)
    (fs : List Value) :
    unmarshalStruct S.toSchema n (appendTag (number t.fieldNum) w ++ body) fs =
      match storeField S.toSchema (unmarshalStruct S.toSchema) n pre.length w body fs with
      | .error e => .error e
      | .ok (fs, rest) => unmarshalStruct S.toSchema n rest fs := by
  obtain ⟨-, -, hpos, hlt⟩ := h.supported
  have hne : appendTag (number t.fieldNum) w ++ body ≠ [] := by simp [appendTag_ne_nil]
  rw [unmarshalStruct_record hne, unmarshalRecord, h.number_eq, consumeTag_append hpos (by omega)]
  simp only [fieldIndex_of_fieldAt h]
  all_goals rfl

variable {w : WireType} {body : Bytes} {done todo : List Value} {cur : Value}

variable (h : S.FieldAt n pre d post t) (hdone : done.length = pre.length)

include h hdone

theorem storeField_eq {sub : StructDecoder N} :
    storeField S.toSchema sub n pre.length w body (done ++ cur :: todo) =
      match unmarshalField S.toSchema sub w d.ty t.repeated cur body with
      | .error e => .error (.field d.name e)
      | .ok (v, rest) => .ok (done ++ v :: todo, rest) := by
  have hd : (S.fields n)[pre.length]? = some d := by rw [h.split]; simp
  have hcur : (done ++ cur :: todo)[pre.length]? = some cur := by rw [← hdone]; simp
  have hset : ∀ v, (done ++ cur :: todo).set pre.length v = done ++ v :: todo := by
    intro v
    rw [← hdone, set_append_right _ _ le_rfl, Nat.sub_self, set_cons_zero]
  rw [storeField, hd, hcur]
  simp only [h.repeated_eq, h.supported.1, if_true, hset]
  all_goals rfl

/-- **A record of a known field** stores the value its body stands for, and decoding goes on. -/
theorem unmarshalStruct_store {rest : Bytes} {v : Value}
    (hfield : unmarshalField S.toSchema (unmarshalStruct S.toSchema) w d.ty t.repeated cur
      (body ++ rest) = .ok (v, rest)) :
    unmarshalStruct S.toSchema n (appendTag (number t.fieldNum) w ++ (body ++ rest))
      (done ++ cur :: todo) = unmarshalStruct S.toSchema n rest (done ++ v :: todo) := by
  rw [unmarshalStruct_tag h, storeField_eq h hdone, hfield]

/-- A record that cannot be stored fails the whole message, under the name of the field. -/
theorem unmarshalStruct_store_error {e : ProtoError}
    (hfield : unmarshalField S.toSchema (unmarshalStruct S.toSchema) w d.ty t.repeated cur body =
      .error e) :
    unmarshalStruct S.toSchema n (appendTag (number t.fieldNum) w ++ body) (done ++ cur :: todo)
      = .error (.field d.name e) := by
  rw [unmarshalStruct_tag h, storeField_eq h hdone, hfield]

end Store

/-! ### Single values -/

/-- No floating-point number in a value of this type, outside of the structs in it. -/
def GoType.floatFree : GoType N → Bool
  | .float32 | .float64 => false
  | .slice t => t.floatFree
  | _ => true

theorem bmod_uint64 (i : ℤ) : Int.bmod (uint64 i) (2 ^ 64) = Int.bmod i (2 ^ 64) := by
  have hcast : ((uint64 i : ℕ) : ℤ) = i % (2 ^ 64 : ℕ) := by
    unfold uint64
    omega
  rw [hcast, Int.emod_bmod]

theorem IntSize.bmod_of_holds {size : IntSize} {i : ℤ} (h : size.holds i = true) :
    Int.bmod i (2 ^ size.bits) = i := by
  have hrange : -2 ^ (size.bits - 1) ≤ i ∧ i < 2 ^ (size.bits - 1) := by
    simpa [IntSize.holds] using h
  cases size <;> simp only [IntSize.bits] at hrange ⊢ <;>
    exact Int.bmod_eq_of_le (by omega) (by omega)

/-- A signed integer survives as an unsigned 64-bit number. -/
theorem IntSize.setInt_uint64 {size : IntSize} {i : ℤ} (h : size.holds i = true) :
    size.setInt (uint64 i) = i := by
  have hdvd : 2 ^ size.bits ∣ 2 ^ 64 := pow_dvd_pow 2 (by cases size <;> decide)
  calc size.setInt (uint64 i) = Int.bmod (Int.bmod i (2 ^ 64)) (2 ^ size.bits) :=
        congrArg (Int.bmod · (2 ^ size.bits)) (bmod_uint64 i)
    _ = Int.bmod i (2 ^ size.bits) := Int.bmod_bmod_of_dvd hdvd
    _ = i := IntSize.bmod_of_holds h

theorem uint64_lt (i : ℤ) : uint64 i < 2 ^ 64 := by
  rw [uint64]
  omega

variable {S : Schema N} {ty : GoType N} {v : Value}

theorem ofVarint_varintOf (hfit : FieldType.varint.fits ty = true) (hv : S.conforms ty v = true) :
    ∃ k < 2 ^ 64, varintOf ty v = some k ∧ ofVarint ty k = .ok v := by
  rcases ty with _ | size | size | _ | _ | _ | _ | _ | _ <;> try cases hfit
  all_goals rcases v with b | i | m | _ | _ | _ | _ | _ | _ <;> try cases hv
  · exact ⟨b.toNat, by cases b <;> decide, rfl, by cases b <;> rfl⟩
  · refine ⟨uint64 i, uint64_lt i, rfl, ?_⟩
    rw [ofVarint, IntSize.setInt_uint64 hv]
  · have hm : m < 2 ^ size.bits := by simpa [Schema.conforms] using hv
    have hbits : 2 ^ size.bits ≤ 2 ^ 64 := by cases size <;> decide
    refine ⟨m, by omega, rfl, ?_⟩
    rw [ofVarint, Nat.mod_eq_of_lt hm]

theorem map_byteOf {vs : List Value} (h : S.elemsConform (.uint .w8) vs = true) :
    (vs.map byteOf).map (fun b => Value.uint b.toNat) = vs := by
  induction vs with
  | nil => rfl
  | cons v vs ih =>
    simp only [Schema.elemsConform, Bool.and_eq_true] at h
    obtain ⟨⟨-, hv⟩, hvs⟩ := h
    rcases v with _ | _ | m | _ | _ | _ | _ | _ | _ <;> try cases hv
    have hm : m < 2 ^ IntSize.w8.bits := by simpa [Schema.conforms] using hv
    rw [map_cons, map_cons, ih hvs, byteOf, toNat_ofNat_byte hm]

theorem eq_zero_of_isZeroValue (hfloat : ty.floatFree = true) (hv : S.conforms ty v = true)
    (h : isZeroValue ty v = true) : v = S.zero ty := by
  rcases ty with _ | _ | _ | _ | _ | _ | _ | _ | _ <;> try cases hfloat
  all_goals rcases v with _ | _ | _ | _ | _ | _ | _ | _ | _ <;> try cases hv
  all_goals simp_all [isZeroValue, Schema.zero, Schema.zeroAt, Value.isNil]

theorem not_isNil_of_isZeroValue (hv : S.conforms ty v = true) (h : isZeroValue ty v = false) :
    v.isNil = false := by
  cases v with
  | nil =>
    cases ty with
    | ptr t => exact h
    | _ => cases hv
  | _ => rfl

end RanGame.Protocol
