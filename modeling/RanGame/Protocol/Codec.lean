import RanGame.Protocol.Schema

/-!
# The reflective protobuf codec

A model of `internal/protocol/codec_proto.go`. The encoder's functions return what they append, the
decoder's functions the value they have stored into and the input that is left. The decoder of a
struct is handed to the decoder of a single value, which calls it for nested messages.
-/

namespace RanGame.Protocol

open Protowire

/-- The errors of the codec, under the texts the source gives them. -/
inductive ProtoError
  /-- An error of `parseProtoTag`. -/
  | tag (cause : TagError)
  /-- `proto: field %s: %w` -/
  | field (name : String) (cause : ProtoError)
  /-- `proto: varint field kind %s` -/
  | varintFieldKind (kind : Kind)
  /-- `proto: fixed64 field kind %s` -/
  | fixed64FieldKind (kind : Kind)
  /-- `proto: fixed32 field kind %s` -/
  | fixed32FieldKind (kind : Kind)
  /-- `proto: bytes slice elem %s` -/
  | bytesSliceElem (kind : Kind)
  /-- `proto: bytes field kind %s` -/
  | bytesFieldKind (kind : Kind)
  /-- `proto: unknown wire type %q` -/
  | unknownWireType (text : Bytes)
  /-- `proto: marshal expects struct, got %s` -/
  | marshalExpectsStruct (kind : Kind)
  /-- `proto: unmarshal requires pointer` -/
  | requiresPointer
  /-- `proto: unmarshal target is nil` -/
  | targetNil
  /-- `proto: unmarshal expects struct, got %s` -/
  | unmarshalExpectsStruct (kind : Kind)
  /-- `protowire.ParseError(n)` -/
  | wire (cause : WireError)
  /-- `proto: varint into %s` -/
  | varintInto (kind : Kind)
  /-- `proto: fixed64 into %s` -/
  | fixed64Into (kind : Kind)
  /-- `proto: fixed32 into %s` -/
  | fixed32Into (kind : Kind)
  /-- `proto: bytes into slice of %s` -/
  | bytesIntoSliceOf (kind : Kind)
  /-- `proto: bytes into %s` -/
  | bytesInto (kind : Kind)
  /-- `proto: unsupported wire type %d` -/
  | unsupportedWireType (t : WireType)
  /-- `proto: repeated field is %s, not slice` -/
  | notSlice (kind : Kind)
  /-- A panic of package `reflect`. -/
  | panic
  deriving DecidableEq, Repr

variable {N : Type}

/-- `uint64(i)` of an `int64`. -/
def uint64 (i : ℤ) : ℕ := (i % 2 ^ 64).toNat

/-- What `SetInt(int64(val))` leaves in an integer of the given size. -/
def IntSize.setInt (size : IntSize) (val : ℕ) : ℤ :=
  Int.bmod (Int.bmod val (2 ^ 64)) (2 ^ size.bits)

/-- A `float32` taken through `float64` and back: a signalling NaN comes back as a quiet one. -/
def quiet32 (bits : ℕ) : ℕ :=
  if bits % 2 ^ 31 > 0x7f800000 then bits ||| 0x400000 else bits

/-! ### Encoding -/

/-- `isZeroValue`. A floating-point zero has either sign. -/
def isZeroValue : GoType N → Value → Bool
  | .bool, .bool b => !b
  | .int _, .int i => i = 0
  | .uint _, .uint n => n = 0
  | .float32, .float bits => bits % 2 ^ 31 = 0
  | .float64, .float bits => bits % 2 ^ 63 = 0
  | .string, .string s => s.length = 0
  | .slice _, .slice vs => vs.length = 0
  | .ptr _, v => v.isNil
  | _, _ => false

/-- The number a boolean or an integer is written as. -/
def varintOf : GoType N → Value → Option ℕ
  | .bool, .bool b => some b.toNat
  | .int _, .int i => some (uint64 i)
  | .uint _, .uint n => some n
  | _, _ => none

def byteOf : Value → UInt8
  | .uint n => UInt8.ofNat n
  | _ => 0

/-- `marshalSingleValue` of a value that is neither a struct nor a pointer. -/
def marshalScalar (fn : ℤ) (ft : FieldType) (ty : GoType N) (v : Value) : Except ProtoError Bytes :=
  match ft with
  | .varint =>
    match varintOf ty v with
    | some n => .ok (appendTag (number fn) .varint ++ appendVarint n)
    | none => .error (.varintFieldKind ty.kind)
  | .fixed64 =>
    match ty, v with
    | .float64, .float bits => .ok (appendTag (number fn) .fixed64 ++ appendFixed 8 bits)
    | _, _ => .error (.fixed64FieldKind ty.kind)
  | .fixed32 =>
    match ty, v with
    | .float32, .float bits => .ok (appendTag (number fn) .fixed32 ++ appendFixed 4 (quiet32 bits))
    | _, _ => .error (.fixed32FieldKind ty.kind)
  | .bytes =>
    match ty, v with
    | .string, .string s => .ok (appendTag (number fn) .bytes ++ appendBytes s)
    | .slice (.uint .w8), .slice vs =>
      .ok (appendTag (number fn) .bytes ++ appendBytes (vs.map byteOf))
    | .slice elem, _ => .error (.bytesSliceElem elem.kind)
    | _, _ => .error (.bytesFieldKind ty.kind)
  | .unknown text => .error (.unknownWireType text)

/-- The record of a nested message. -/
def messageRecord (fn : ℤ) (inner : Except ProtoError Bytes) : Except ProtoError Bytes :=
  match inner with
  | .error e => .error e
  | .ok data => .ok (appendTag (number fn) .bytes ++ appendBytes data)

/-- One piece of output after another, if both can be produced. -/
def andThen (first second : Except ProtoError Bytes) : Except ProtoError Bytes :=
  match first with
  | .error e => .error e
  | .ok b =>
    match second with
    | .error e => .error e
    | .ok b' => .ok (b ++ b')

mutual

/-- `marshalSingleValue`. A nil pointer is left out even where the field is repeated. -/
def marshalSingleValue (S : Schema N) (fn : ℤ) (ft : FieldType) :
    GoType N → Value → Except ProtoError Bytes
  | .struct n, .struct fs =>
    if ft = .bytes then messageRecord fn (marshalStruct S (S.fields n) fs)
    else marshalScalar fn ft (.struct n) (.struct fs)
  | .ptr t, .nil => if ft = .bytes then .ok [] else marshalScalar fn ft (.ptr t) .nil
  | .ptr (.struct n), .ref (.struct fs) =>
    if ft = .bytes then messageRecord fn (marshalStruct S (S.fields n) fs)
    else marshalScalar fn ft (.ptr (.struct n)) (.ref (.struct fs))
  | .ptr t, v => if ft = .bytes then .error .panic else marshalScalar fn ft (.ptr t) v
  | ty, v => marshalScalar fn ft ty v

/-- The loop of `marshalRepeated` over a slice. -/
def marshalElems (S : Schema N) (fn : ℤ) (ft : FieldType) (elem : GoType N) :
    List Value → Except ProtoError Bytes
  | [] => .ok []
  | v :: vs => andThen (marshalSingleValue S fn ft elem v) (marshalElems S fn ft elem vs)

/-- `marshalRepeated`. The elements of a string are its bytes; other kinds have no length. -/
def marshalRepeated (S : Schema N) (fn : ℤ) (ft : FieldType) :
    GoType N → Value → Except ProtoError Bytes
  | .slice elem, .slice vs => marshalElems S fn ft elem vs
  | .string, .string s =>
    s.foldr (fun b out => andThen (marshalScalar (N := N) fn ft (.uint .w8) (.uint b.toNat)) out)
      (.ok [])
  | _, _ => .error .panic

/-- `marshalStruct`, from some field on. -/
def marshalStruct (S : Schema N) : List (FieldDecl N) → List Value → Except ProtoError Bytes
  | d :: ds, v :: vs =>
    if d.tag = "" || !d.exported then marshalStruct S ds vs
    else
      match parseProtoTag d.tag with
      | .error e => .error (.field d.name (.tag e))
      | .ok t =>
        andThen (if t.repeated then marshalRepeated S t.fieldNum t.wireType d.ty v
            -- `marshalField`: a zero value is not written
            else if isZeroValue d.ty v then .ok []
            else marshalSingleValue S t.fieldNum t.wireType d.ty v)
          (marshalStruct S ds vs)
  | _, _ => .ok []

end

/-- What a value points at in the end, unless a pointer on the way is nil. -/
def derefs : GoType N → Value → Option (GoType N × Value)
  | .ptr t, .ref v => derefs t v
  | .ptr _, _ => none
  | t, v => some (t, v)

/-- `Marshal`: the message with its type, or the nil interface. -/
def marshal (S : Schema N) (msg : Option (GoType N × Value)) : Except ProtoError Bytes :=
  match msg.bind fun (t, v) => derefs t v with
  | none => .ok []
  | some (.struct n, .struct fs) => marshalStruct S (S.fields n) fs
  | some (t, _) => .error (.marshalExpectsStruct t.kind)

/-! ### Decoding -/

/-- The value a varint stores into a boolean or an integer. -/
def ofVarint (ty : GoType N) (val : ℕ) : Except ProtoError Value :=
  match ty with
  | .bool => .ok (.bool (val ≠ 0))
  | .int size => .ok (.int (size.setInt val))
  | .uint size => .ok (.uint (val % 2 ^ size.bits))
  | _ => .error (.varintInto ty.kind)

/-- The decoder of a struct: its type, the input and the fields it starts from. -/
abbrev StructDecoder (N : Type) := N → Bytes → List Value → Except ProtoError (List Value)

/-- What a length-delimited record stores: a nested message is decoded onto what is there, or onto a
zero struct. -/
def ofBytes (S : Schema N) (sub : StructDecoder N) (ty : GoType N) (cur : Value) (val : Bytes) :
    Except ProtoError Value :=
  match ty, cur with
  | .string, _ => .ok (.string val)
  | .slice (.uint .w8), _ => .ok (.slice (val.map fun b => .uint b.toNat))
  | .slice elem, _ => .error (.bytesIntoSliceOf elem.kind)
  | .struct n, .struct fs => (sub n val fs).map .struct
  | .ptr (.struct n), .nil => (sub n val (S.zeros (S.fields n))).map fun fs => .ref (.struct fs)
  | .ptr (.struct n), .ref (.struct fs) => (sub n val fs).map fun fs => .ref (.struct fs)
  -- a pointer to anything else has no fields
  | .ptr _, _ | .struct _, _ => .error .panic
  | _, _ => .error (.bytesInto ty.kind)

/-- `unmarshalSingle`: the wire type decides what is read, the type what is stored. -/
def unmarshalSingle (S : Schema N) (sub : StructDecoder N) (t : WireType) (ty : GoType N)
    (cur : Value) (data : Bytes) : Except ProtoError (Value × Bytes) :=
  match t with
  | .varint =>
    match consumeVarint data with
    | .error e => .error (.wire e)
    | .ok (val, rest) => (ofVarint ty val).map fun v => (v, rest)
  | .fixed64 =>
    match consumeFixed 8 data with
    | .error e => .error (.wire e)
    | .ok (val, rest) =>
      if ty.kind = .float64 then .ok (.float val, rest) else .error (.fixed64Into ty.kind)
  | .fixed32 =>
    match consumeFixed 4 data with
    | .error e => .error (.wire e)
    | .ok (val, rest) =>
      if ty.kind = .float32 then .ok (.float (quiet32 val), rest) else .error (.fixed32Into ty.kind)
  | .bytes =>
    match consumeBytes data with
    | .error e => .error (.wire e)
    | .ok (val, rest) => (ofBytes S sub ty cur val).map fun v => (v, rest)
  | t => .error (.unsupportedWireType t)

/-- `unmarshalRepeated`: decode one element and append it. -/
def unmarshalRepeated (S : Schema N) (sub : StructDecoder N) (t : WireType) (ty : GoType N)
    (cur : Value) (data : Bytes) : Except ProtoError (Value × Bytes) :=
  match ty, cur with
  | .slice elem, .slice vs =>
    (unmarshalSingle S sub t elem (S.zero elem) data).map fun (v, rest) =>
      (.slice (vs ++ [v]), rest)
  | _, _ => .error (.notSlice ty.kind)

def unmarshalField (S : Schema N) (sub : StructDecoder N) (t : WireType) (ty : GoType N)
    (repeated : Bool) (cur : Value) (data : Bytes) : Except ProtoError (Value × Bytes) :=
  if repeated then unmarshalRepeated S sub t ty cur data else unmarshalSingle S sub t ty cur data

/-- The map from field numbers to indices; the last of equal numbers wins, unreadable tags are left
out. -/
def fieldMap : List (FieldDecl N) → ℕ → (ℤ → Option ℕ) → ℤ → Option ℕ
  | [], _, m => m
  | d :: ds, i, m =>
    fieldMap ds (i + 1) <|
      if d.tag = "" then m
      else
        match parseProtoTag d.tag with
        | .error _ => m
        | .ok t => Function.update m (number t.fieldNum) (some i)

def fieldIndex (ds : List (FieldDecl N)) (num : ℤ) : Option ℕ := fieldMap ds 0 (fun _ => none) num

def FieldDecl.repeated (d : FieldDecl N) : Bool :=
  match parseProtoTag d.tag with
  | .ok t => t.repeated
  | .error _ => false

/-- Decode the value of field `i`, whose tag has been read, and store it. -/
def storeField (S : Schema N) (sub : StructDecoder N) (n : N) (i : ℕ) (t : WireType)
    (data : Bytes) (fs : List Value) : Except ProtoError (List Value × Bytes) :=
  match (S.fields n)[i]?, fs[i]? with
  | some d, some cur =>
    match unmarshalField S sub t d.ty d.repeated cur data with
    | .error e => .error (.field d.name e)
    -- `reflect` refuses to set an unexported field
    | .ok (v, rest) => if d.exported then .ok (fs.set i v, rest) else .error .panic
  | _, _ => .error .panic

/-- One round of the loop of `unmarshalStruct`: a tag, and a value stored or skipped. -/
def unmarshalRecord (S : Schema N) (sub : StructDecoder N) (n : N) (data : Bytes)
    (fs : List Value) : Except ProtoError (List Value × Bytes) :=
  match consumeTag data with
  | .error e => .error (.wire e)
  | .ok ((num, t), rest) =>
    match fieldIndex (S.fields n) num with
    | none =>
      -- an unknown field is skipped
      match consumeFieldValue num t rest with
      | .error e => .error (.wire e)
      | .ok rest => .ok (fs, rest)
    | some i => storeField S sub n i t rest fs

/-- The loop of `unmarshalStruct`, with a budget for all rounds. -/
def unmarshalLoop (S : Schema N) : ℕ → StructDecoder N
  | 0, _, _, fs => .ok fs
  | k + 1, n, data, fs =>
    if data = [] then .ok fs
    else
      match unmarshalRecord S (unmarshalLoop S k) n data fs with
      | .error e => .error e
      | .ok (fs, rest) => unmarshalLoop S k n rest fs

def unmarshalStruct (S : Schema N) : StructDecoder N :=
  fun n data fs => unmarshalLoop S data.length n data fs

/-- `Unmarshal` into the message `v` of type `t`: the message after it. -/
def unmarshal (S : Schema N) (data : Bytes) (t : GoType N) (v : Value) : Except ProtoError Value :=
  match t, v with
  | .ptr (.struct n), .ref (.struct fs) =>
    (unmarshalStruct S n data fs).map fun fs => .ref (.struct fs)
  | .ptr t, .ref _ => .error (.unmarshalExpectsStruct t.kind)
  | .ptr _, _ => .error .targetNil
  | _, _ => .error .requiresPointer

/-! ### The budget

A nested message and the rest of the input are both shorter than the input, so the budget of
`unmarshalStruct` is never used up. -/

section Budget

variable {S : Schema N} {sub sub' : StructDecoder N} {n : N} {data : Bytes}

theorem map_eq_ok {α β : Type} {x : Except ProtoError α} {f : α → β} {b : β}
    (h : x.map f = .ok b) : ∃ a, x = .ok a ∧ f a = b := by
  rcases x with e | a
  · cases h
  · exact ⟨a, rfl, Except.ok.inj h⟩

variable {t : WireType} {ty : GoType N} {cur : Value} {rest : Bytes}

theorem length_of_unmarshalSingle {v : Value}
    (h : unmarshalSingle S sub t ty cur data = .ok (v, rest)) : rest.length ≤ data.length := by
  cases t with
  | varint =>
    simp only [unmarshalSingle] at h
    split at h
    · cases h
    next hc =>
      obtain ⟨v, -, rfl, rfl⟩ := map_eq_ok h
      exact (length_of_consumeVarint hc).le
  | fixed64 | fixed32 =>
    simp only [unmarshalSingle] at h
    split at h
    · cases h
    next hc =>
      split at h <;> cases h
      · exact length_of_consumeFixed hc
  | bytes =>
    simp only [unmarshalSingle] at h
    split at h
    · cases h
    next hc =>
      obtain ⟨v, -, rfl, rfl⟩ := map_eq_ok h
      have := length_of_consumeBytes hc
      omega
  | startGroup | endGroup | reserved6 | reserved7 => cases h

theorem length_of_unmarshalRecord {fs fs' : List Value}
    (h : unmarshalRecord S sub n data fs = .ok (fs', rest)) : rest.length < data.length := by
  rw [unmarshalRecord] at h
  split at h
  · cases h
  rename_i num t rest₁ htag
  have htag := length_of_consumeTag htag
  split at h
  · split at h <;> cases h
    next hskip => exact (length_of_consumeFieldValue hskip).trans_lt htag
  · rw [storeField] at h
    split at h
    · split at h
      · cases h
      next hfield =>
        split at h <;> cases h
        · rw [unmarshalField] at hfield
          split at hfield
          · unfold unmarshalRepeated at hfield
            split at hfield
            · obtain ⟨⟨v, r⟩, hsingle, rfl, rfl⟩ := map_eq_ok hfield
              exact (length_of_unmarshalSingle hsingle).trans_lt htag
            · cases hfield
          · exact (length_of_unmarshalSingle hfield).trans_lt htag
    · cases h

theorem ofBytes_congr {val : Bytes} (h : ∀ n fs, sub n val fs = sub' n val fs) :
    ofBytes S sub ty cur val = ofBytes S sub' ty cur val := by
  unfold ofBytes
  split <;> simp only [h]

section

variable (h : ∀ n b fs, b.length < data.length → sub n b fs = sub' n b fs)

include h

theorem unmarshalSingle_congr :
    unmarshalSingle S sub t ty cur data = unmarshalSingle S sub' t ty cur data := by
  cases t with
  | bytes =>
    simp only [unmarshalSingle]
    split
    · rfl
    next val rest hc =>
      have hlen := length_of_consumeBytes hc
      rw [ofBytes_congr fun n fs => h n val fs (by omega)]
  | _ => rfl

theorem unmarshalField_congr {rep : Bool} :
    unmarshalField S sub t ty rep cur data = unmarshalField S sub' t ty rep cur data := by
  simp only [unmarshalField, unmarshalRepeated, unmarshalSingle_congr h]

theorem unmarshalRecord_congr {fs : List Value} :
    unmarshalRecord S sub n data fs = unmarshalRecord S sub' n data fs := by
  rw [unmarshalRecord, unmarshalRecord]
  split
  · rfl
  next num t rest htag =>
    have hrest := length_of_consumeTag htag
    have hsub : ∀ n b fs, b.length < rest.length → sub n b fs = sub' n b fs :=
      fun n b fs hb => h n b fs (hb.trans hrest)
    simp only [storeField, unmarshalField_congr hsub]

end

/-- **The decoder's result does not depend on the budget**, once it is as long as the input. -/
theorem unmarshalLoop_budget {j k : ℕ} (hj : data.length ≤ j) (hk : data.length ≤ k)
    (fs : List Value) : unmarshalLoop S j n data fs = unmarshalLoop S k n data fs := by
  induction j generalizing k n data fs with
  | zero =>
    obtain rfl := List.length_eq_zero_iff.mp (Nat.le_zero.mp hj)
    cases k <;> rfl
  | succ j ih =>
    rcases k with _ | k
    · obtain rfl := List.length_eq_zero_iff.mp (Nat.le_zero.mp hk)
      rfl
    · rw [unmarshalLoop, unmarshalLoop]
      split
      · rfl
      · have hsub : unmarshalRecord S (unmarshalLoop S j) n data fs
            = unmarshalRecord S (unmarshalLoop S k) n data fs :=
          unmarshalRecord_congr fun n b fs hb => ih (by omega) (by omega) fs
        rw [hsub]
        rcases hrec : unmarshalRecord S (unmarshalLoop S k) n data fs with e | ⟨fs', rest⟩
        · rfl
        · have := length_of_unmarshalRecord hrec
          exact ih (by omega) (by omega) fs'

@[simp] theorem unmarshalStruct_nil (fs : List Value) : unmarshalStruct S n [] fs = .ok fs := rfl

/-- The loop of `unmarshalStruct`, one record at a time and with no budget. -/
theorem unmarshalStruct_record (h : data ≠ []) (fs : List Value) : unmarshalStruct S n data fs =
      match unmarshalRecord S (unmarshalStruct S) n data fs with
      | .error e => .error e
      | .ok (fs, rest) => unmarshalStruct S n rest fs := by
  obtain ⟨k, hk⟩ : ∃ k, data.length = k + 1 :=
    ⟨data.length - 1, by have := List.length_pos_of_ne_nil h; omega⟩
  have hsub : unmarshalRecord S (unmarshalLoop S k) n data fs
      = unmarshalRecord S (unmarshalStruct S) n data fs :=
    unmarshalRecord_congr fun n b fs hb => unmarshalLoop_budget (by omega) le_rfl fs
  rw [unmarshalStruct, hk, unmarshalLoop, if_neg h, hsub]
  rcases hrec : unmarshalRecord S (unmarshalStruct S) n data fs with e | ⟨fs', rest⟩
  · rfl
  · have := length_of_unmarshalRecord hrec
    exact unmarshalLoop_budget (by omega) le_rfl fs'

end Budget

end RanGame.Protocol
