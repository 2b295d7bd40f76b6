import RanGame.Protocol.Codec
import RanGame.Lib.Json

/-!
# The JSON codec

`JSONCodec` of `internal/protocol/codec_json.go` is package `encoding/json`: what it does with a
message whose fields are strings, integers and raw JSON. A key is looked up as it is and then
without regard to case. After a value that does not fit its field the decoder goes on, and reports
the first error when it is done.
-/

namespace RanGame.Protocol

open Json List

/-! ### Fields -/

/-- The types of the fields of a message. -/
inductive FieldKind
  | string
  | int (size : IntSize)
  | uint (size : IntSize)
  /-- `json.RawMessage`. -/
  | raw
  deriving DecidableEq, Repr

def FieldKind.goType {N : Type} : FieldKind → GoType N
  | .string => .string
  | .int size => .int size
  | .uint size => .uint size
  | .raw => .slice (.uint .w8)

structure MessageField where
  name : String
  /-- The text under the key `json`, empty if there is none. -/
  json : String
  /-- The text under the key `protobuf`, empty if there is none. -/
  protobuf : String
  kind : FieldKind
  deriving DecidableEq, Repr

namespace MessageField

/-- The field as the protobuf codec sees it. -/
def decl {N : Type} (f : MessageField) : FieldDecl N :=
  { name := f.name, tag := f.protobuf, exported := true, ty := f.kind.goType }

/-- The name of the field in an object: its tag before the first comma, or its own. -/
def key (f : MessageField) : Bytes :=
  match (ascii f.json).splitOn 44 with
  | [] | [] :: _ => ascii f.name
  | name :: _ => name

/-- Is the field left out when it is empty? -/
def omitempty (f : MessageField) : Bool :=
  ((ascii f.json).splitOn 44).tail.contains (ascii "omitempty")

end MessageField

/-- `json.RawMessage` as a value. -/
def rawMessage (s : Bytes) : Value := .slice (s.map fun b => .uint b.toNat)

def rawText : Value → Bytes
  | .slice vs => vs.map byteOf
  | _ => []

theorem rawText_rawMessage (s : Bytes) : rawText (rawMessage s) = s := by
  rw [rawMessage, rawText, map_map]
  conv_rhs => rw [← map_id s]
  refine map_congr_left fun b _ => ?_
  simp only [Function.comp_apply, byteOf, UInt8.ofNat_toNat, id]

def FieldKind.zero : FieldKind → Value
  | .string => .string []
  | .int _ => .int 0
  | .uint _ => .uint 0
  | .raw => .slice []

/-- What a JSON text begins as. -/
inductive JsonKind
  | null
  | bool
  | number
  | string
  | array
  | object
  deriving DecidableEq, Repr

def jsonKind (s : Bytes) : JsonKind :=
  match s.head? with
  | some 34 => .string
  | some 91 => .array
  | some 123 => .object
  | some 110 => .null
  | some 116 | some 102 => .bool
  | _ => .number

inductive JsonError
  /-- `SyntaxError` -/
  | badSyntax
  /-- `json: cannot unmarshal %s into Go struct field %s` -/
  | unmarshalType (value : JsonKind) (field : String)
  /-- `json: error calling MarshalJSON for type json.RawMessage` -/
  | marshaler
  deriving DecidableEq, Repr

/-! ### Encoding -/

/-- How deep values may be nested inside of the object that a message is. -/
def innerDepth : ℕ := 9999

def isEmptyValue : Value → Bool
  | .string s => s.length = 0
  | .int i => i = 0
  | .uint n => n = 0
  | .slice vs => vs.length = 0
  | _ => false

/-- The text of one field. A raw message is checked, and written without its spaces. -/
def writeValue : FieldKind → Value → Except JsonError Bytes
  | .string, .string s => .ok (quote s)
  | .int _, .int i => .ok (signedDecimal i)
  | .uint _, .uint n => .ok (decimal n)
  | .raw, .slice [] => .ok (ascii "null")
  | .raw, v =>
    match compact (innerDepth + 1) (rawText v) with
    | some s => .ok s
    | none => .error .marshaler
  | _, _ => .error .marshaler

/-- The members of the object that a message is written as. -/
def members : List MessageField → List Value → Except JsonError (List (Bytes × Bytes))
  | f :: fs, v :: vs =>
    if f.omitempty && isEmptyValue v then members fs vs
    else
      match writeValue f.kind v, members fs vs with
      | .error e, _ | _, .error e => .error e
      | .ok raw, .ok ms => .ok ((f.key, raw) :: ms)
  | _, _ => .ok []

def marshalJSON (fs : List MessageField) (vs : List Value) : Except JsonError Bytes :=
  (members fs vs).map printMembers

/-! ### Decoding -/

/-- A name without regard to case. Besides ASCII only the long s and the Kelvin sign matter. -/
def foldName : Bytes → Bytes
  | 0xC5 :: 0xBF :: bs => 83 :: foldName bs
  | 0xE2 :: 0x84 :: 0xAA :: bs => 75 :: foldName bs
  | b :: bs => (if 97 ≤ b ∧ b ≤ 122 then b - 32 else b) :: foldName bs
  | [] => []

/-- The field that a key belongs to. -/
def fieldOf (fs : List MessageField) (key : Bytes) : Option ℕ :=
  match fs.findIdx? fun f => f.key = key with
  | some i => some i
  | none => fs.findIdx? fun f => foldName f.key = foldName key

/-- A number that fits the field. -/
def parseNumber (raw : Bytes) : FieldKind → Option Value
  | .int size =>
    match atoi raw with
    | .ok i => if size.holds i then some (.int i) else none
    | .error _ => none
  | .uint size =>
    match parseUint (2 ^ 64 - 1) 0 raw with
    | .ok n => if n < 2 ^ size.bits then some (.uint n) else none
    | .error _ => none
  | _ => none

/-- What a text decodes to, if it fits the field. -/
def parseValue (kind : FieldKind) (raw : Bytes) : Option Value :=
  match kind, jsonKind raw with
  | .raw, _ => some (rawMessage raw)
  | .string, .string => (unquote raw.tail).map fun p => .string p.1
  | kind, .number => parseNumber raw kind
  | _, _ => none

/-- The value of a field after a member for it. `null` leaves it as it is. -/
def setValue (kind : FieldKind) (raw : Bytes) (cur : Value) : Value :=
  if kind ≠ .raw ∧ jsonKind raw = .null then cur else (parseValue kind raw).getD cur

/-- The error that a member leaves behind. -/
def valueError (f : MessageField) (raw : Bytes) : Option JsonError :=
  if f.kind ≠ .raw ∧ jsonKind raw = .null then none
  else if (parseValue f.kind raw).isSome then none
  else some (.unmarshalType (jsonKind raw) f.name)

def storeMember (fs : List MessageField) (m : Bytes × Bytes) (vs : List Value) :
    List Value × Option JsonError :=
  match fieldOf fs m.1 with
  | none => (vs, none)
  | some i =>
    match fs[i]? with
    | none => (vs, none)
    | some f => (vs.modify i (setValue f.kind m.2), valueError f m.2)

/-- Decode one member after the other. The first error counts. -/
def storeMembers (fs : List MessageField) :
    List (Bytes × Bytes) → List Value → List Value × Option JsonError
  | [], vs => (vs, none)
  | m :: ms, vs =>
    let (vs, err) := storeMember fs m vs
    let (vs, err') := storeMembers fs ms vs
    (vs, err.or err')

/-- `Unmarshal` into a message, and the error. The text is checked before anything is stored. -/
def unmarshalJSON (fs : List MessageField) (data : Bytes) (vs : List Value) :
    List Value × Option JsonError :=
  if valid (innerDepth + 1) data then
    match jsonKind (skipSpace data) with
    | .null => (vs, none)
    | .object =>
      match readMembers (scanValue innerDepth) (skipSpace data).tail with
      | some (ms, _) => storeMembers fs ms vs
      | none => (vs, some .badSyntax)
    | kind => (vs, some (.unmarshalType kind ""))
  else (vs, some .badSyntax)

/-! ### Names -/

/-- The fields of a message. Their names are ASCII, and differ by more than case. -/
structure MessageType where
  fields : List MessageField
  ascii_key : ∀ f ∈ fields, ∀ b ∈ f.key, b < 0x80
  nodup : (fields.map fun f => foldName f.key).Nodup

theorem ascii_of_all {fields : List MessageField}
    (h : (fields.all fun f => f.key.all fun b => decide (b < 0x80)) = true) :
    ∀ f ∈ fields, ∀ b ∈ f.key, b < 0x80 := by
  intro f hf b hb
  have hkey := all_eq_true.mp h f hf
  exact of_decide_eq_true (all_eq_true.mp hkey b hb)

section Names

variable {T : MessageType} {i : ℕ} {f : MessageField}

variable {fs : List MessageField}

theorem exists_of_findIdx? {p : MessageField → Bool} (h : fs.findIdx? p = some i) :
    ∃ g, fs[i]? = some g ∧ p g = true := by
  obtain ⟨hlt, hp, -⟩ := findIdx?_eq_some_iff_getElem.mp h
  exact ⟨fs[i], getElem?_eq_getElem hlt, hp⟩

theorem exists_of_fieldOf {key : Bytes} (h : fieldOf fs key = some i) :
    ∃ g, fs[i]? = some g ∧ foldName g.key = foldName key := by
  rw [fieldOf] at h
  split at h
  next j hj =>
    cases h
    obtain ⟨g, hg, hkey⟩ := exists_of_findIdx? hj
    exact ⟨g, hg, congrArg foldName (of_decide_eq_true hkey)⟩
  · obtain ⟨g, hg, hkey⟩ := exists_of_findIdx? h
    exact ⟨g, hg, of_decide_eq_true hkey⟩

theorem fieldOf_ne_none {key : Bytes} (hf : f ∈ fs) (hkey : foldName f.key = foldName key) :
    fieldOf fs key ≠ none := by
  intro hnone
  rw [fieldOf] at hnone
  split at hnone
  · cases hnone
  · exact of_decide_eq_false (findIdx?_eq_none_iff.mp hnone f hf) hkey

theorem MessageType.eq_of_foldName {j : ℕ} {g : MessageField} (hf : T.fields[i]? = some f)
    (hg : T.fields[j]? = some g) (hkey : foldName g.key = foldName f.key) : j = i := by
  have hj : (T.fields.map fun f => foldName f.key)[j]? = some (foldName f.key) := by
    rw [getElem?_map, hg, Option.map_some, hkey]
  have hi : (T.fields.map fun f => foldName f.key)[i]? = some (foldName f.key) := by
    rw [getElem?_map, hf, Option.map_some]
  exact (List.getElem?_inj (List.getElem?_eq_some_iff.mp hj).1 T.nodup).mp (hj.trans hi.symm)

/-- **A key belongs to the field whose name it is**, up to case. -/
theorem fieldOf_eq_some_iff (hf : T.fields[i]? = some f) (key : Bytes) :
    fieldOf T.fields key = some i ↔ foldName f.key = foldName key := by
  constructor
  · intro h
    obtain ⟨g, hg, hkey⟩ := exists_of_fieldOf h
    rw [hf] at hg
    cases hg
    exact hkey
  · intro hkey
    have hsome := fieldOf_ne_none (mem_of_getElem? hf) hkey
    obtain ⟨j, hj⟩ := Option.ne_none_iff_exists'.mp hsome
    obtain ⟨g, hg, hg'⟩ := exists_of_fieldOf hj
    rw [hj, T.eq_of_foldName hf hg (hg'.trans hkey.symm)]

theorem MessageType.coerce_key (hf : f ∈ T.fields) : coerce f.key = f.key :=
  coerce_of_ascii (T.ascii_key f hf)

end Names

section Agreement

variable {fs gs : List MessageField} {f g : MessageField} {i j : ℕ}

theorem getElem?_storeMember (hf : fs[i]? = some f) (m : Bytes × Bytes) (vs : List Value) :
    (storeMember fs m vs).1[i]? =
      if fieldOf fs m.1 = some i then vs[i]?.map (setValue f.kind m.2) else vs[i]? := by
  rw [storeMember]
  split
  next hnone => rw [hnone, if_neg (Option.some_ne_none i).symm]
  next k hk =>
    by_cases hki : k = i
    · subst hki
      rw [hk, if_pos rfl, hf]
      exact getElem?_modify_eq _ _ _
    · rw [hk, if_neg fun h => hki (Option.some.inj h)]
      split
      · rfl
      · exact getElem?_modify_ne _ _ hki

/-- **A field depends on the members that belong to it**, and on nothing else. -/
theorem getElem?_storeMembers (hf : fs[i]? = some f) (ms : List (Bytes × Bytes)) (vs : List Value) :
    (storeMembers fs ms vs).1[i]? =
      vs[i]?.map fun cur => (ms.filter fun m => fieldOf fs m.1 = some i).foldl
        (fun cur m => setValue f.kind m.2 cur) cur := by
  induction ms generalizing vs with
  | nil => simp [storeMembers]
  | cons m ms ih =>
    have hrest := ih (storeMember fs m vs).1
    rw [getElem?_storeMember hf] at hrest
    simp only [storeMembers]
    rw [hrest]
    by_cases hm : fieldOf fs m.1 = some i
    · rw [if_pos hm, filter_cons_of_pos (by simpa using hm), Option.map_map]
      rfl
    · rw [if_neg hm, filter_cons_of_neg (by simpa using hm)]

/-- **One text, decoded into two types, is the same in fields of one name.** -/
theorem unmarshalJSON_agree {T U : MessageType} (hf : T.fields[i]? = some f)
    (hg : U.fields[j]? = some g) (hkey : f.key = g.key) (hkind : f.kind = g.kind) (data : Bytes)
    {vs ws : List Value} (hcur : vs[i]? = ws[j]?) :
    (unmarshalJSON T.fields data vs).1[i]? = (unmarshalJSON U.fields data ws).1[j]? := by
  have hfield : ∀ key, (fieldOf T.fields key = some i) = (fieldOf U.fields key = some j) := by
    intro key
    rw [fieldOf_eq_some_iff hf, fieldOf_eq_some_iff hg, hkey]
  simp only [unmarshalJSON]
  split
  · split
    · exact hcur
    · split
      · rw [getElem?_storeMembers hf, getElem?_storeMembers hg, hcur, hkind]
        simp only [hfield]
      · exact hcur
    · exact hcur
  · exact hcur

end Agreement

/-! ### Messages that are encoded are decoded again -/

/-- What arrives of a value. -/
def Value.coerced : Value → Value
  | .string s => .string (coerce s)
  | v => v

/-- A value of a field. Raw JSON is the text of one value, and has no spaces in it. -/
inductive Sendable : FieldKind → Value → Prop
  | string (s : Bytes) : Sendable .string (.string s)
  | int {size : IntSize} {i : ℤ} (h : size.holds i = true) : Sendable (.int size) (.int i)
  | uint {size : IntSize} {n : ℕ} (h : n < 2 ^ size.bits) : Sendable (.uint size) (.uint n)
  | raw {s : Bytes} (h : ∀ depth, Written (depth + 1) s) (hplain : ∀ b ∈ s, isPlain b = true) :
    Sendable .raw (rawMessage s)

theorem IntSize.holds_range {size : IntSize} {i : ℤ} (h : size.holds i = true) :
    -2 ^ 63 ≤ i ∧ i < 2 ^ 63 := by
  simp only [IntSize.holds, Bool.and_eq_true, decide_eq_true_eq] at h
  cases size <;> simp only [IntSize.bits] at h <;> omega

theorem jsonKind_of_isDigit {b : UInt8} (h : isDigit b = true) (bs : Bytes) :
    jsonKind (b :: bs) = .number := by
  simp only [jsonKind, head?_cons]
  split
  all_goals first
    | rfl
    | (rename_i heq
       cases heq
       cases h)

theorem jsonKind_decimal (n : ℕ) : jsonKind (decimal n) = .number := by
  obtain ⟨b, bs, hdec⟩ := exists_cons_of_ne_nil (decimal_ne_nil n)
  have hb : isDigit b = true := isDigit_of_mem_decimal (n := n) (by rw [hdec]; simp)
  rw [hdec, jsonKind_of_isDigit hb]

theorem jsonKind_signedDecimal (i : ℤ) : jsonKind (signedDecimal i) = .number := by
  rw [signedDecimal]
  split
  · rfl
  · exact jsonKind_decimal _

variable {v : Value} {T : MessageType} {pre : List MessageField}

/-- What a field is written as, and that it is read back. -/
theorem Sendable.exists_text {kind : FieldKind} (h : Sendable kind v) :
    ∃ raw, writeValue kind v = .ok raw ∧ Written innerDepth raw ∧
      parseValue kind raw = some v.coerced ∧ ¬ (kind ≠ .raw ∧ jsonKind raw = .null) := by
  cases h with
  | string s =>
    refine ⟨quote s, rfl, written_quote _ s, ?_, ?_⟩
    · have hread := unquote_quote s []
      simp only [parseValue, jsonKind, quote, head?_cons, tail_cons, hread, Value.coerced,
        Option.map_some]
    · rintro ⟨-, hnull⟩
      cases hnull
  | @int size i hi =>
    refine ⟨signedDecimal i, rfl, written_signedDecimal _ i, ?_, ?_⟩
    · have hrange := IntSize.holds_range hi
      simp only [parseValue, jsonKind_signedDecimal, parseNumber,
        atoi_signedDecimal hrange.1 hrange.2, hi, if_true, Value.coerced]
    · rw [jsonKind_signedDecimal]
      rintro ⟨-, hnull⟩
      cases hnull
  | @uint size n hn =>
    refine ⟨decimal n, rfl, written_decimal _ n, ?_, ?_⟩
    · have hmax : n ≤ 2 ^ 64 - 1 := by cases size <;> simp only [IntSize.bits] at hn <;> omega
      simp only [parseValue, jsonKind_decimal, parseNumber, parseUint_decimal hmax, hn, if_true,
        Value.coerced]
    · rw [jsonKind_decimal]
      rintro ⟨-, hnull⟩
      cases hnull
  | @raw s hs hplain =>
    refine ⟨s, ?_, hs 9998, rfl, fun h => h.1 rfl⟩
    have hcompact := compact_of_written (hs innerDepth) hplain
    obtain ⟨b, bs, rfl⟩ := exists_cons_of_ne_nil (hs 0).ne_nil
    have htext := rawText_rawMessage (b :: bs)
    simp only [rawMessage, map_cons] at htext ⊢
    simp only [writeValue, htext, hcompact]

/-- The values of a message. A field may also be empty, where it is left out then. -/
def AllSendable (fs : List MessageField) (vs : List Value) : Prop :=
  List.Forall₂ (fun f v => Sendable f.kind v ∨ f.omitempty = true ∧ v = f.kind.zero) fs vs

theorem isEmptyValue_zero (kind : FieldKind) : isEmptyValue kind.zero = true := by
  cases kind <;> rfl

theorem coerced_zero (kind : FieldKind) : kind.zero.coerced = kind.zero := by
  cases kind <;> rfl

/-- The fields of a message that have not been decoded yet. -/
def zeros (fs : List MessageField) : List Value := fs.map fun f => f.kind.zero

theorem modify_length_append {α : Type} (f : α → α) (done rest : List α) (cur : α) :
    (done ++ cur :: rest).modify done.length f = done ++ f cur :: rest := by
  induction done with
  | nil => rfl
  | cons a done ih => rw [cons_append, length_cons, modify_succ_cons, ih]; rfl

theorem storeMember_next {post : List MessageField} {f : MessageField}
    (hsplit : T.fields = pre ++ f :: post) {done rest : List Value}
    (hlen : done.length = pre.length) {raw : Bytes} (hparse : parseValue f.kind raw = some v)
    (hnull : ¬ (f.kind ≠ .raw ∧ jsonKind raw = .null)) (cur : Value) :
    storeMember T.fields (coerce f.key, raw) (done ++ cur :: rest) = (done ++ v :: rest, none) := by
  have hf : T.fields[pre.length]? = some f := by rw [hsplit]; simp
  have hmem : f ∈ T.fields := mem_of_getElem? hf
  have hfield : fieldOf T.fields (coerce f.key) = some pre.length := by
    rw [fieldOf_eq_some_iff hf, MessageType.coerce_key hmem]
  have hset : setValue f.kind raw cur = v := by
    rw [setValue, if_neg hnull, hparse]
    rfl
  have herr : valueError f raw = none := by
    rw [valueError, if_neg hnull, hparse]
    rfl
  simp only [storeMember, hfield, hf, herr]
  rw [← hlen, modify_length_append, hset]

theorem storeMembers_members {fs : List MessageField} {vs : List Value} (h : AllSendable fs vs)
    (hsplit : T.fields = pre ++ fs) {done : List Value} (hlen : done.length = pre.length) :
    ∃ ms, members fs vs = .ok ms ∧ (∀ m ∈ ms, Written innerDepth m.2) ∧
      storeMembers T.fields (ms.map fun m => (coerce m.1, m.2)) (done ++ zeros fs) =
        (done ++ vs.map Value.coerced, none) := by
  induction h generalizing pre done with
  | nil => exact ⟨[], rfl, by simp, rfl⟩
  | @cons f v fs vs hv hvs ih =>
    have hsplit' : T.fields = (pre ++ [f]) ++ fs := by rw [hsplit]; simp
    have hlen' : ∀ w : Value, (done ++ [w]).length = (pre ++ [f]).length := by
      intro w
      rw [length_append, length_append, hlen]
      rfl
    by_cases homit : f.omitempty = true ∧ isEmptyValue v = true
    · -- the field is left out, and keeps its zero value
      have hzero : v = f.kind.zero := by
        rcases hv with hv | hv
        · generalize f.kind = kind at hv
          have hempty := homit.2
          cases hv with
          | string s =>
            rw [length_eq_zero_iff.mp (of_decide_eq_true hempty)]
            rfl
          | int hi | uint hi =>
            rw [of_decide_eq_true hempty]
            rfl
          | raw hs hplain =>
            rw [rawMessage, length_eq_zero_iff.mp (of_decide_eq_true hempty)]
            rfl
        · exact hv.2
      subst hzero
      obtain ⟨ms, hms, hwritten, hstore⟩ := ih hsplit' (hlen' f.kind.zero)
      refine ⟨ms, ?_, hwritten, ?_⟩
      · rw [members, if_pos (by simp [homit]), hms]
      · rw [append_assoc, append_assoc] at hstore
        rw [map_cons, coerced_zero]
        exact hstore
    · have hsend : Sendable f.kind v := by
        rcases hv with hv | ⟨hopt, rfl⟩
        · exact hv
        · exact absurd ⟨hopt, isEmptyValue_zero _⟩ homit
      obtain ⟨raw, hwrite, hraw, hparse, hnull⟩ := hsend.exists_text
      obtain ⟨ms, hms, hwritten, hstore⟩ := ih hsplit' (hlen' v.coerced)
      refine ⟨(f.key, raw) :: ms, ?_, ?_, ?_⟩
      · rw [members, if_neg (by simpa using homit), hwrite, hms]
      · intro m hm
        rcases mem_cons.mp hm with rfl | hm
        · exact hraw
        · exact hwritten m hm
      · have hnext : storeMember T.fields (coerce f.key, raw) (done ++ zeros (f :: fs)) =
            (done ++ v.coerced :: zeros fs, none) :=
          storeMember_next hsplit hlen hparse hnull f.kind.zero
        rw [append_assoc, append_assoc] at hstore
        rw [map_cons, storeMembers, hnext]
        exact hstore

theorem unmarshalJSON_printMembers (fs : List MessageField) {ms : List (Bytes × Bytes)}
    (h : ∀ m ∈ ms, Written innerDepth m.2) (vs : List Value) :
    unmarshalJSON fs (printMembers ms) vs =
      storeMembers fs (ms.map fun m => (coerce m.1, m.2)) vs := by
  have hobject := written_object h
  obtain ⟨bs, hbs, hread⟩ := readMembers_printMembers h []
  have hskip := hobject.skip []
  have hvalid := hobject.valid
  rw [append_nil] at hbs hskip
  rw [hbs] at hskip hvalid ⊢
  have hkind : jsonKind (123 :: bs) = .object := rfl
  simp only [unmarshalJSON, hvalid, if_true, hskip, hkind, tail_cons, hread]

/-- **A message that is encoded is decoded again**, up to what is not UTF-8. -/
theorem unmarshalJSON_marshalJSON {vs : List Value} (h : AllSendable T.fields vs) :
    ∃ data, marshalJSON T.fields vs = .ok data ∧
      unmarshalJSON T.fields data (zeros T.fields) = (vs.map Value.coerced, none) := by
  have hstart : ([] : List Value).length = ([] : List MessageField).length := rfl
  obtain ⟨ms, hms, hwritten, hstore⟩ := storeMembers_members h (nil_append _).symm hstart
  refine ⟨printMembers ms, ?_, ?_⟩
  · rw [marshalJSON, hms]
    rfl
  · rw [unmarshalJSON_printMembers _ hwritten]
    exact hstore

end RanGame.Protocol
