import RanGame.Protocol.Onto

/-!
# Decoding what was encoded

`Unmarshal` of `Marshal` is the merge into a zero value: the message comes back, if there are no
floating-point fields.
-/

namespace RanGame.Protocol

variable {N : Type}

theorem exists_unmarshalStruct (S : SupportedSchema N)
    (hfloat : ∀ n, ∀ d ∈ S.fields n, d.ty.floatFree = true) {n : N} {fs : List Value}
    (hv : S.fieldsConform (S.fields n) fs = true) :
    ∃ b, marshalStruct S.toSchema (S.fields n) fs = .ok b ∧ (b.length < 2 ^ 64 →
        unmarshalStruct S.toSchema n b (S.zeros (S.fields n)) = .ok fs) := by
  obtain ⟨b, hwrite, hread⟩ := (mergesOnto_fields S n fs [] _ rfl hv).decode
  refine ⟨b, hwrite, fun hlen => ?_⟩
  rw [hread hlen _ (S.fieldsConform_zeros fun d _ => S.conforms_zero d.ty), S.mergeFields_zeros,
    S.receivedFields_of_floatFree hfloat _ _ (hfloat n) hv]

/-- **Decoding what was encoded.** A message of a supported schema without floats, and with no nil
pointer in a repeated field, can be encoded, and decoding gives it back. No Go slice has `2 ^ 64`
bytes. -/
theorem unmarshal_marshal (S : SupportedSchema N)
    (hfloat : ∀ n, ∀ d ∈ S.fields n, d.ty.floatFree = true) {t : GoType N} {v msg : Value} {n : N}
    (hmsg : derefs t v = some (.struct n, msg)) (hv : S.conforms (.struct n) msg = true) :
    ∃ b, marshal S.toSchema (some (t, v)) = .ok b ∧ (b.length < 2 ^ 64 →
        unmarshal S.toSchema b (.ptr (.struct n)) (.ref (S.zero (.struct n))) =
          .ok (.ref msg)) := by
  rcases msg with _ | _ | _ | _ | _ | _ | fs | _ | _ <;> try cases hv
  obtain ⟨b, hwrite, hread⟩ := exists_unmarshalStruct S hfloat hv
  refine ⟨b, ?_, fun hlen => ?_⟩
  · rw [marshal, Option.bind_some]
    simp only [hmsg, hwrite]
  · rw [Schema.zero_struct, unmarshal, hread hlen]
    rfl

/-- The messages of the snake game that its state is broadcast in. -/
inductive SnakeMessage
  | point
  | snakeState
  | stateNtf
  deriving DecidableEq

/-- `Point`, `SnakeState` and `StateNtf` of `games/snake/messages.go`. -/
def snakeFields : SnakeMessage → List (FieldDecl SnakeMessage)
  | .point =>
    [⟨"X", "varint,1,opt,name=x,proto3", true, .int .native⟩,
      ⟨"Y", "varint,2,opt,name=y,proto3", true, .int .native⟩]
  | .snakeState =>
    [⟨"UID", "bytes,1,opt,name=uid,proto3", true, .string⟩,
      ⟨"Body", "bytes,2,rep,name=body,proto3", true, .slice (.struct .point)⟩,
      ⟨"Alive", "varint,3,opt,name=alive,proto3", true, .bool⟩,
      ⟨"Score", "varint,4,opt,name=score,proto3", true, .int .native⟩]
  | .stateNtf =>
    [⟨"Tick", "varint,1,opt,name=tick,proto3", true, .int .w64⟩,
      ⟨"Snakes", "bytes,2,rep,name=snakes,proto3", true, .slice (.struct .snakeState)⟩,
      ⟨"Food", "bytes,3,opt,name=food,proto3", true, .struct .point⟩]

/-- The snake game's messages are a supported schema. -/
def snakeSchema : SupportedSchema SnakeMessage where
  fields := snakeFields
  rank
    | .stateNtf => 1
    | _ => 0
  rank_lt := by
    intro n d hd m hm
    cases n <;> simp only [snakeFields, List.mem_cons, List.not_mem_nil, or_false] at hd
    · rcases hd with rfl | rfl <;> cases hm
    · rcases hd with rfl | rfl | rfl | rfl <;> cases hm
    · rcases hd with rfl | rfl | rfl <;> cases hm
      exact Nat.zero_lt_one
  supported := by
    intro n
    cases n <;> decide
  nodup := by
    intro n
    cases n <;> decide

/-- A state of the game with two snakes, one of them dead and without a body. -/
def twoSnakes : Value :=
  .struct [.int 7, .slice [
      .struct [.string [97], .slice [.struct [.int 3, .int (-1)], .struct [.int 0, .int 0]],
        .bool true, .int 2],
      .struct [.string [98], .slice [], .bool false, .int 0]],
    .struct [.int 0, .int 300]]

theorem unmarshal_marshal_twoSnakes :
    ∃ b, marshal snakeSchema.toSchema (some (.ptr (.struct .stateNtf), .ref twoSnakes)) = .ok b ∧
      (b.length < 2 ^ 64 → unmarshal snakeSchema.toSchema b (.ptr (.struct .stateNtf))
          (.ref (snakeSchema.zero (.struct .stateNtf))) = .ok (.ref twoSnakes)) :=
  unmarshal_marshal snakeSchema (fun n => by cases n <;> decide) rfl (by decide)

end RanGame.Protocol
