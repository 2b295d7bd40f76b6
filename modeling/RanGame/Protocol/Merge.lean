import RanGame.Protocol.Packed
import RanGame.Protocol.RoundTrip

/-!
# Decoding in pieces, and the merge of two messages

Input can be cut between any two records and decoded in two calls, a record of an unknown field
makes no difference, and the encodings of two messages, one behind the other, are decoded to their
merge as proto3 defines it. A well-formed record of a known field may still be unacceptable; then
both ways of decoding fail with the same error.
-/

namespace RanGame.Protocol

open Protowire

variable {N : Type}

/-! ### One record with more input behind it -/

section Record

variable (S : Schema N) (sub : StructDecoder N) (n : N) {num : ℤ} {t : WireType} {body r : Bytes}

section

variable (h : consumeFieldValue num t body = .ok [])

include h

theorem exists_unmarshalSingle (ty : GoType N) (cur : Value) : ∃ res : Except ProtoError Value,
      ∀ more, unmarshalSingle S sub t ty cur (body ++ more) = res.map fun v => (v, more) := by
  cases t with
  | varint =>
    obtain ⟨val, hval⟩ := map_snd_eq_ok h
    refine ⟨ofVarint ty val, fun more => ?_⟩
    rw [unmarshalSingle, consumeVarint_of_ok hval]
    rfl
  | fixed64 =>
    obtain ⟨val, hval⟩ := map_snd_eq_ok h
    refine ⟨if ty.kind = .float64 then .ok (.float val) else .error (.fixed64Into ty.kind),
      fun more => ?_⟩
    rw [unmarshalSingle, consumeFixed_of_ok hval]
    by_cases hty : ty.kind = .float64 <;> simp only [hty, if_true, if_false] <;> rfl
  | fixed32 =>
    obtain ⟨val, hval⟩ := map_snd_eq_ok h
    refine ⟨if ty.kind = .float32 then .ok (.float (quiet32 val))
      else .error (.fixed32Into ty.kind),
      fun more => ?_⟩
    rw [unmarshalSingle, consumeFixed_of_ok hval]
    by_cases hty : ty.kind = .float32 <;> simp only [hty, if_true, if_false] <;> rfl
  | bytes =>
    obtain ⟨val, hval⟩ := map_snd_eq_ok h
    refine ⟨ofBytes S sub ty cur val, fun more => ?_⟩
    rw [unmarshalSingle, consumeBytes_of_ok hval]
    rfl
  | startGroup => exact ⟨.error (.unsupportedWireType .startGroup), fun _ => rfl⟩
  | endGroup | reserved6 | reserved7 => cases h

theorem exists_unmarshalField (ty : GoType N) (rep : Bool) (cur : Value) :
    ∃ res : Except ProtoError Value,
      ∀ more, unmarshalField S sub t ty rep cur (body ++ more) = res.map fun v => (v, more) := by
  cases rep with
  | false => exact exists_unmarshalSingle S sub h ty cur
  | true =>
    cases ty with
    | slice elem =>
      cases cur with
      | slice vs =>
        obtain ⟨res, hres⟩ := exists_unmarshalSingle S sub h elem (S.zero elem)
        refine ⟨res.map fun v => .slice (vs ++ [v]), fun more => ?_⟩
        simp only [unmarshalField, if_true, unmarshalRepeated, hres]
        cases res <;> rfl
      | _ => exact ⟨.error (.notSlice .slice), fun _ => rfl⟩
    | _ => exact ⟨.error (.notSlice _), fun _ => rfl⟩

theorem exists_storeField (i : ℕ) (fs : List Value) : ∃ res : Except ProtoError (List Value),
      ∀ more, storeField S sub n i t (body ++ more) fs = res.map fun fs => (fs, more) := by
  unfold storeField
  split
  next d cur _ _ =>
    obtain ⟨res, hres⟩ := exists_unmarshalField S sub h d.ty d.repeated cur
    simp only [hres]
    rcases res with e | v
    · exact ⟨.error (.field d.name e), fun _ => rfl⟩
    · refine ⟨if d.exported then .ok (fs.set i v) else .error .panic, fun more => ?_⟩
      cases d.exported <;> rfl
  · exact ⟨.error .panic, fun _ => rfl⟩

end

/-- **What one round of the decoder does depends on the record alone.** -/
theorem exists_unmarshalRecord (h : IsRecord num t r) (fs : List Value) :
    ∃ res : Except ProtoError (List Value),
      ∀ more, unmarshalRecord S sub n (r ++ more) fs = res.map fun fs => (fs, more) := by
  obtain ⟨body, htag, hbody⟩ := h
  rcases hi : fieldIndex (S.fields n) num with _ | i
  · refine ⟨.ok fs, fun more => ?_⟩
    rw [unmarshalRecord, consumeTag_of_ok htag]
    simp only [hi, consumeFieldValue_of_ok hbody]
    rfl
  · obtain ⟨res, hres⟩ := exists_storeField S sub n hbody i fs
    refine ⟨res, fun more => ?_⟩
    rw [unmarshalRecord, consumeTag_of_ok htag]
    simp only [hi]
    exact hres more

variable {S n}

theorem unmarshalStruct_isRecord (h : IsRecord num t r) (more : Bytes) (fs : List Value) :
    unmarshalStruct S n (r ++ more) fs =
      (unmarshalStruct S n r fs).bind (unmarshalStruct S n more) := by
  obtain ⟨res, hres⟩ := exists_unmarshalRecord S (unmarshalStruct S) n h fs
  have hr := hres []
  rw [List.append_nil] at hr
  rw [unmarshalStruct_record (by simp [h.ne_nil]), unmarshalStruct_record h.ne_nil, hr, hres more]
  cases res <;> rfl

/-- **Decoding in two calls**, cut between well-formed records. -/
theorem unmarshalStruct_append {x : Bytes} (hx : Records x) (y : Bytes) (fs : List Value) :
    unmarshalStruct S n (x ++ y) fs = (unmarshalStruct S n x fs).bind (unmarshalStruct S n y) := by
  induction hx generalizing fs with
  | nil => rfl
  | cons head tail ih =>
    rw [List.append_assoc, unmarshalStruct_isRecord head, unmarshalStruct_isRecord head]
    rcases unmarshalStruct S n _ fs with e | fs'
    · rfl
    · exact ih fs'

end Record

/-! ### Records of unknown fields -/

/-- The struct type of the messages that the records of a field hold. -/
def FieldDecl.message (d : FieldDecl N) : Option N :=
  match d.repeated, d.ty with
  | true, .slice elem => elem.message
  | true, _ => none
  | false, ty => ty.message

/-- `x'` is the input `x` for a struct of type `n` with one record of an unknown field put in,
between two records or inside a nested message. -/
inductive Inserted (S : Schema N) : N → Bytes → Bytes → Prop
  | between {n : N} {num : ℤ} {t : WireType} {x r y : Bytes} (before : Records x)
    (record : IsRecord num t r) (unknown : fieldIndex (S.fields n) num = none) :
    Inserted S n (x ++ y) (x ++ (r ++ y))
  | inside {n m : N} {num : ℤ} {i : ℕ} {d : FieldDecl N} {x tag body body' inner inner' y : Bytes}
    (before : Records x) (htag : consumeTag tag = .ok ((num, .bytes), []))
    (known : fieldIndex (S.fields n) num = some i) (field : (S.fields n)[i]? = some d)
    (message : d.message = some m) (hbody : consumeBytes body = .ok (inner, []))
    (hbody' : consumeBytes body' = .ok (inner', [])) (nested : Inserted S m inner inner') :
    Inserted S n (x ++ (tag ++ (body ++ y))) (x ++ (tag ++ (body' ++ y)))

section Unknown

variable {S : Schema N} {sub : StructDecoder N} {n m : N} {num : ℤ} {t : WireType}

/-- **A record of an unknown field is skipped.** -/
theorem unmarshalStruct_unknown {r : Bytes} (h : IsRecord num t r)
    (hnum : fieldIndex (S.fields n) num = none) (y : Bytes) (fs : List Value) :
    unmarshalStruct S n (r ++ y) fs = unmarshalStruct S n y fs := by
  obtain ⟨body, htag, hbody⟩ := id h
  rw [unmarshalStruct_record (by simp [h.ne_nil]), unmarshalRecord, consumeTag_of_ok htag]
  simp only [hnum, consumeFieldValue_of_ok hbody]
  rfl

theorem ofBytes_of_message {ty : GoType N} {val val' : Bytes} (hty : ty.message = some m)
    (h : ∀ fs, sub m val' fs = sub m val fs) (cur : Value) :
    ofBytes S sub ty cur val' = ofBytes S sub ty cur val := by
  unfold GoType.message at hty
  split at hty <;> cases hty
  · cases cur <;> simp only [ofBytes, h]
  · unfold ofBytes
    split <;> simp_all

theorem unmarshalField_of_message {d : FieldDecl N} {body body' inner inner' : Bytes}
    (hd : d.message = some m) (hbody : consumeBytes body = .ok (inner, []))
    (hbody' : consumeBytes body' = .ok (inner', []))
    (h : ∀ fs, sub m inner' fs = sub m inner fs) (cur : Value) (y : Bytes) :
    unmarshalField S sub .bytes d.ty d.repeated cur (body' ++ y) =
      unmarshalField S sub .bytes d.ty d.repeated cur (body ++ y) := by
  have hsingle : ∀ ty : GoType N, ty.message = some m → ∀ cur,
      unmarshalSingle S sub .bytes ty cur (body' ++ y)
        = unmarshalSingle S sub .bytes ty cur (body ++ y) := by
    intro ty hty cur
    rw [unmarshalSingle, unmarshalSingle, consumeBytes_of_ok hbody, consumeBytes_of_ok hbody']
    simp only [ofBytes_of_message hty h]
  unfold FieldDecl.message at hd
  split at hd
  next elem hrep hty =>
    have helem := hsingle elem hd (S.zero elem)
    rw [hrep, hty, unmarshalField, unmarshalField, if_pos rfl, if_pos rfl]
    cases cur with
    | slice vs => simp only [unmarshalRepeated, helem]
    | _ => rfl
  · cases hd
  next hrep =>
    rw [hrep, unmarshalField, unmarshalField]
    exact hsingle d.ty hd cur

/-- **Unknown fields make no difference**, wherever their records stand. -/
theorem unmarshalStruct_inserted {x x' : Bytes} (h : Inserted S n x x') (fs : List Value) :
    unmarshalStruct S n x' fs = unmarshalStruct S n x fs := by
  induction h generalizing fs with
  | between before record unknown =>
    rw [unmarshalStruct_append before, unmarshalStruct_append before]
    congr 1
    funext fs'
    exact unmarshalStruct_unknown record unknown _ fs'
  | @inside n m num i d x tag body body' inner inner' y before htag known field message hbody
      hbody' _ ih =>
    rw [unmarshalStruct_append before, unmarshalStruct_append before]
    congr 1
    funext fs'
    have hne : ∀ b, tag ++ b ≠ [] := by
      intro b hb
      obtain ⟨rfl, -⟩ := List.append_eq_nil_iff.mp hb
      exact absurd (length_of_consumeTag htag) (Nat.not_lt_zero _)
    have hstore : storeField S (unmarshalStruct S) n i .bytes (body' ++ y) fs'
        = storeField S (unmarshalStruct S) n i .bytes (body ++ y) fs' := by
      unfold storeField
      split
      next d' cur hd hcur =>
        obtain rfl : d = d' := Option.some.inj (field.symm.trans hd)
        rw [unmarshalField_of_message message hbody hbody' ih]
      · rfl
    rw [unmarshalStruct_record (hne _), unmarshalStruct_record (hne _), unmarshalRecord,
      unmarshalRecord, consumeTag_of_ok htag, consumeTag_of_ok htag]
    simp only [known, List.nil_append, hstore]

end Unknown

theorem exists_unmarshalStruct_merge (S : SupportedSchema N) {n : N} {as bs : List Value}
    (ha : S.fieldsConform (S.fields n) as = true) (hb : S.fieldsConform (S.fields n) bs = true) :
    ∃ x y, marshalStruct S.toSchema (S.fields n) as = .ok x ∧
      marshalStruct S.toSchema (S.fields n) bs = .ok y ∧
      ((x ++ y).length < 2 ^ 64 → unmarshalStruct S.toSchema n (x ++ y) (S.zeros (S.fields n))
          = .ok (S.mergeFields (S.fields n) (S.receivedFields (S.fields n) as)
              (S.receivedFields (S.fields n) bs))) := by
  have hzeros : S.fieldsConform (S.fields n) (S.zeros (S.fields n)) = true :=
    S.fieldsConform_zeros fun d _ => S.conforms_zero d.ty
  obtain ⟨x, hx, hreadx⟩ := mergesOnto_fields S n as [] _ rfl ha
  obtain ⟨y, hy, hready⟩ := (mergesOnto_fields S n bs [] _ rfl hb).decode
  refine ⟨x, y, hx, hy, fun hlen => ?_⟩
  rw [List.length_append] at hlen
  have hfirst := hreadx (by omega) y [] _ rfl hzeros
  rw [List.nil_append, List.nil_append, S.mergeFields_zeros] at hfirst
  rw [hfirst]
  exact hready (by omega) _ (S.fieldsConform_received _ _ ha)

/-- **The decoder composes.** Decoding well-formed records `x` and then `y` is decoding `y` onto
what `x` is decoded to, errors included; a record of an unknown field changes nothing anywhere; and
the encodings of two messages are decoded to the merge of the messages as read back. -/
theorem unmarshal_concat (S : SupportedSchema N) : (∀ x y, Records x → Records y → ∀ t v,
      unmarshal S.toSchema (x ++ y) t v =
        (unmarshal S.toSchema x t v).bind fun v => unmarshal S.toSchema y t v) ∧
    (∀ n x x', Inserted S.toSchema n x x' → ∀ v, unmarshal S.toSchema x' (.ptr (.struct n)) v =
        unmarshal S.toSchema x (.ptr (.struct n)) v) ∧
    ∀ n t u v w a b, derefs t v = some (.struct n, a) → derefs u w = some (.struct n, b) →
      S.conforms (.struct n) a = true → S.conforms (.struct n) b = true →
      (∃ x y, marshal S.toSchema (some (t, v)) = .ok x ∧ marshal S.toSchema (some (u, w)) = .ok y ∧
        ((x ++ y).length < 2 ^ 64 →
          unmarshal S.toSchema (x ++ y) (.ptr (.struct n)) (.ref (S.zero (.struct n))) =
            .ok (.ref (S.mergeValue (.struct n) (S.received (.struct n) a)
              (S.received (.struct n) b))))) ∧
      ((∀ m, ∀ d ∈ S.fields m, d.ty.floatFree = true) →
        S.received (.struct n) a = a ∧ S.received (.struct n) b = b) := by
  refine ⟨fun x y hx _ t v => ?_, fun n x x' h v => ?_, fun n t u v w a b hv hw ha hb =>
    ⟨?_, fun hfloat => ?_⟩⟩
  · unfold unmarshal
    split
    · rw [unmarshalStruct_append hx]
      cases unmarshalStruct S.toSchema _ x _ <;> rfl
    all_goals rfl
  · unfold unmarshal
    split
    next heq =>
      cases heq
      rw [unmarshalStruct_inserted h]
    all_goals rfl
  · rcases a with _ | _ | _ | _ | _ | _ | as | _ | _ <;> try cases ha
    rcases b with _ | _ | _ | _ | _ | _ | bs | _ | _ <;> try cases hb
    obtain ⟨x, y, hx, hy, hread⟩ := exists_unmarshalStruct_merge S ha hb
    refine ⟨x, y, ?_, ?_, fun hlen => ?_⟩
    · rw [marshal, Option.bind_some]
      simp only [hv, hx]
    · rw [marshal, Option.bind_some]
      simp only [hw, hy]
    · rw [Schema.zero_struct, unmarshal, hread hlen]
      rfl
  · exact ⟨S.received_of_floatFree hfloat _ a rfl ha, S.received_of_floatFree hfloat _ b rfl hb⟩

/-- Another state of the game, in which only a third snake is left. -/
def thirdSnake : Value :=
  .struct [.int 8, .slice [.struct [.string [99], .slice [], .bool true, .int 5]],
    .struct [.int 4, .int 0]]

theorem unmarshal_concat_snakes :
    (unmarshal snakeSchema.toSchema ([8, 7] ++ [8, 9]) (.ptr (.struct .stateNtf)) (.ref twoSnakes)
      = (unmarshal snakeSchema.toSchema [8, 7] (.ptr (.struct .stateNtf)) (.ref twoSnakes)).bind
          fun v => unmarshal snakeSchema.toSchema [8, 9] (.ptr (.struct .stateNtf)) v) ∧
    unmarshal snakeSchema.toSchema ([8, 7] ++ ([72, 1] ++ [8, 9])) (.ptr (.struct .stateNtf))
        (.ref twoSnakes)
      = unmarshal snakeSchema.toSchema ([8, 7] ++ [8, 9]) (.ptr (.struct .stateNtf))
        (.ref twoSnakes) ∧
    ∃ x y, marshal snakeSchema.toSchema (some (.struct .stateNtf, twoSnakes)) = .ok x ∧
      marshal snakeSchema.toSchema (some (.struct .stateNtf, thirdSnake)) = .ok y ∧
      ((x ++ y).length < 2 ^ 64 → unmarshal snakeSchema.toSchema (x ++ y) (.ptr (.struct .stateNtf))
            (.ref (snakeSchema.zero (.struct .stateNtf)))
          = .ok (.ref (snakeSchema.mergeValue (.struct .stateNtf) twoSnakes thirdSnake))) := by
  obtain ⟨happend, hinserted, hmerge⟩ := unmarshal_concat snakeSchema
  have hseven : IsRecord 1 .varint [8, 7] := ⟨[7], rfl, rfl⟩
  have hnine : IsRecord 1 .varint [8, 9] := ⟨[9], rfl, rfl⟩
  have hrecord : IsRecord 9 .varint [72, 1] := ⟨[1], rfl, rfl⟩
  have hunknown : fieldIndex (snakeSchema.fields .stateNtf) 9 = none := by decide +kernel
  have hfirst : Records ([8, 7] ++ []) := .cons hseven .nil
  have hsecond : Records ([8, 9] ++ []) := .cons hnine .nil
  obtain ⟨hconcat, hfree⟩ := hmerge .stateNtf (.struct .stateNtf) (.struct .stateNtf) twoSnakes
    thirdSnake twoSnakes thirdSnake rfl rfl (by decide) (by decide)
  obtain ⟨htwo, hthird⟩ := hfree fun m => by cases m <;> decide
  rw [htwo, hthird] at hconcat
  exact ⟨happend _ _ hfirst hsecond _ _, hinserted _ _ _ (.between hfirst hrecord hunknown) _,
    hconcat⟩

end RanGame.Protocol
