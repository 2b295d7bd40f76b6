import RanGame.Lib.Protowire

/-!
# Struct types, their values and their protobuf tags

What the reflective codec (`internal/protocol/codec_proto.go`) walks over: types, their values, and
the `protobuf:"…"` tag of a field with its parser. Struct types are named, so that a type may
contain itself behind a pointer or a slice. A struct held directly inside another one has to be of
lower rank, since a Go struct has finite size. Nil and empty slices are the same.
-/

namespace RanGame.Protocol

open Protowire

/-! ### Types and values -/

/-- The widths of Go's integer types; `native` is that of `int` and `uint`. -/
inductive IntSize
  | native
  | w8
  | w16
  | w32
  | w64
  deriving DecidableEq, Repr

def IntSize.bits : IntSize → ℕ
  | .w8 => 8
  | .w16 => 16
  | .w32 => 32
  | .native | .w64 => 64

/-- A Go type the codec can be given; `N` names the struct types. -/
inductive GoType (N : Type)
  | bool
  | int (size : IntSize)
  | uint (size : IntSize)
  | float32
  | float64
  | string
  | slice (elem : GoType N)
  | struct (name : N)
  | ptr (elem : GoType N)
  deriving DecidableEq, Repr

/-- What `reflect.Kind` keeps of a type. -/
inductive Kind
  | bool
  | int (size : IntSize)
  | uint (size : IntSize)
  | float32
  | float64
  | string
  | slice
  | struct
  | ptr
  deriving DecidableEq, Repr

def GoType.kind {N : Type} : GoType N → Kind
  | .bool => .bool
  | .int size => .int size
  | .uint size => .uint size
  | .float32 => .float32
  | .float64 => .float64
  | .string => .string
  | .slice _ => .slice
  | .struct _ => .struct
  | .ptr _ => .ptr

/-- A Go value. Floats are their bit patterns, a string is its bytes, a struct its fields. -/
inductive Value
  | bool (b : Bool)
  | int (i : ℤ)
  | uint (n : ℕ)
  | float (bits : ℕ)
  | string (s : Bytes)
  | slice (elems : List Value)
  | struct (fields : List Value)
  | nil
  | ref (target : Value)
  deriving Repr

def Value.isNil : Value → Bool
  | .nil => true
  | _ => false

structure FieldDecl (N : Type) where
  name : String
  /-- The text under the key `protobuf`, empty if there is none. -/
  tag : String
  exported : Bool
  ty : GoType N

structure Schema (N : Type) where
  fields : N → List (FieldDecl N)
  rank : N → ℕ
  /-- A struct type has finite size. -/
  rank_lt : ∀ n, ∀ d ∈ fields n, ∀ m, d.ty = .struct m → rank m < rank n

variable {N : Type}

namespace Schema

/-! ### Zero values -/

/-- How deep structs are held directly inside one another in a type. -/
def depth (S : Schema N) : GoType N → ℕ
  | .struct n => S.rank n + 1
  | _ => 0

/-- The zero value of a type in which structs are nested at most `k` deep. -/
def zeroAt (S : Schema N) : ℕ → GoType N → Value
  | _, .bool => .bool false
  | _, .int _ => .int 0
  | _, .uint _ => .uint 0
  | _, .float32 | _, .float64 => .float 0
  | _, .string => .string []
  | _, .slice _ => .slice []
  | _, .ptr _ => .nil
  | 0, .struct _ => .struct []
  | k + 1, .struct n => .struct ((S.fields n).map fun d => zeroAt S k d.ty)

def zero (S : Schema N) (t : GoType N) : Value := S.zeroAt (S.depth t) t

def zeros (S : Schema N) (ds : List (FieldDecl N)) : List Value := ds.map fun d => S.zero d.ty

theorem depth_lt (S : Schema N) {n : N} {d : FieldDecl N} (hd : d ∈ S.fields n) :
    S.depth d.ty < S.depth (.struct n) := by
  cases ht : d.ty with
  | struct m => exact Nat.succ_lt_succ (S.rank_lt n d hd m ht)
  | _ => exact Nat.succ_pos _

theorem zeroAt_of_depth_le (S : Schema N) (t : GoType N) (k : ℕ) (h : S.depth t ≤ k) :
    S.zeroAt k t = S.zero t := by
  suffices hsame : ∀ j k t, S.depth t ≤ j → S.depth t ≤ k → S.zeroAt j t = S.zeroAt k t from
    hsame k (S.depth t) t h le_rfl
  intro j
  induction j with
  | zero =>
    intro k t hj _
    cases t with
    | struct n => exact absurd hj (Nat.not_succ_le_zero _)
    | _ => simp only [zeroAt]
  | succ j ih =>
    intro k t hj hk
    cases t with
    | struct n =>
      obtain ⟨k, rfl⟩ : ∃ k', k = k' + 1 := ⟨k - 1, by simp only [depth] at hk; omega⟩
      simp only [zeroAt, Value.struct.injEq]
      refine List.map_congr_left fun d hd => ?_
      have := S.depth_lt hd
      exact ih k d.ty (by omega) (by omega)
    | _ => simp only [zeroAt]

@[simp] theorem zero_struct (S : Schema N) (n : N) :
    S.zero (.struct n) = .struct (S.zeros (S.fields n)) := by
  rw [zero, show S.depth (.struct n) = S.rank n + 1 from rfl, zeroAt, zeros]
  congr 1
  refine List.map_congr_left fun d hd => S.zeroAt_of_depth_le d.ty _ ?_
  have := S.depth_lt hd
  simp only [depth] at this ⊢
  omega

@[simp] theorem zero_slice (S : Schema N) (t : GoType N) : S.zero (.slice t) = .slice [] := rfl

@[simp] theorem zero_ptr (S : Schema N) (t : GoType N) : S.zero (.ptr t) = .nil := rfl

end Schema

/-! ### Tags -/

/-- What the first part of a tag says about the way the field is written. -/
inductive FieldType
  | varint
  | fixed64
  | fixed32
  | bytes
  | unknown (text : Bytes)
  deriving DecidableEq, Repr

def ascii (s : String) : Bytes := s.toList.map fun c => UInt8.ofNat c.toNat

/-- The field type a text names. -/
def FieldType.ofText (text : Bytes) : FieldType :=
  if text = ascii "varint" then .varint
  else if text = ascii "fixed64" then .fixed64
  else if text = ascii "fixed32" then .fixed32
  else if text = ascii "bytes" then .bytes
  else .unknown text

/-- What `parseProtoTag` finds in a tag. -/
structure ProtoTag where
  wireType : FieldType
  fieldNum : ℤ
  repeated : Bool
  deriving DecidableEq, Repr

inductive TagError
  /-- `proto: tag needs at least wireType,fieldNum` -/
  | short
  /-- `proto: field number: %w` -/
  | fieldNumber (cause : NumError)
  deriving DecidableEq, Repr

/-- `parseProtoTag`: wire type, field number and options, of which only `rep` and `repeated` matter
here. -/
def parseProtoTag (tag : String) : Except TagError ProtoTag :=
  match (ascii tag).splitOn 44 with
  | wireType :: num :: opts =>
    match atoi num with
    | .error e => .error (.fieldNumber e)
    | .ok fieldNum =>
      .ok { wireType := .ofText wireType, fieldNum
            repeated := opts.any fun opt => opt = ascii "rep" || opt = ascii "repeated" }
  | _ => .error .short

/-- `protowire.Number(fn)`: an `int` cut down to 32 bits. -/
def number (fn : ℤ) : ℤ := Int.bmod fn (2 ^ 32)

/-! ### Conforming values and supported schemas -/

def IntSize.holds (size : IntSize) (i : ℤ) : Bool :=
  -2 ^ (size.bits - 1) ≤ i && i < 2 ^ (size.bits - 1)

mutual

/-- Is `v` a value of type `t`, with no nil pointer inside a slice? -/
def Schema.conforms (S : Schema N) : GoType N → Value → Bool
  | .bool, .bool _ => true
  | .int size, .int i => size.holds i
  | .uint size, .uint n => n < 2 ^ size.bits
  | .float32, .float bits => bits < 2 ^ 32
  | .float64, .float bits => bits < 2 ^ 64
  | .string, .string _ => true
  | .slice t, .slice vs => S.elemsConform t vs
  | .struct n, .struct fs => S.fieldsConform (S.fields n) fs
  | .ptr _, .nil => true
  | .ptr t, .ref v => S.conforms t v
  | _, _ => false

/-- Are these the elements of a slice? -/
def Schema.elemsConform (S : Schema N) (t : GoType N) : List Value → Bool
  | [] => true
  | v :: vs => !v.isNil && S.conforms t v && S.elemsConform t vs

/-- Are these the fields of a struct? -/
def Schema.fieldsConform (S : Schema N) : List (FieldDecl N) → List Value → Bool
  | [], [] => true
  | d :: ds, v :: vs => S.conforms d.ty v && S.fieldsConform ds vs
  | _, _ => false

end

/-- The types a single value may have under each wire type of a tag. -/
def FieldType.fits : FieldType → GoType N → Bool
  | .varint, .bool | .varint, .int _ | .varint, .uint _ | .fixed64, .float64 | .fixed32, .float32
  | .bytes, .string | .bytes, .slice (.uint .w8) | .bytes, .struct _ | .bytes, .ptr (.struct _) =>
    true
  | _, _ => false

/-- A repeated field is a slice of what its wire type can write. -/
def ProtoTag.fits (t : ProtoTag) (ty : GoType N) : Bool :=
  if t.repeated then
    match ty with
    | .slice elem => t.wireType.fits elem
    | _ => false
  else t.wireType.fits ty

/-- The tag of a field, where it can be read. -/
def FieldDecl.protoTag (d : FieldDecl N) : Option ProtoTag := (parseProtoTag d.tag).toOption

/-- An exported field whose tag fits its type and has a valid field number. -/
def FieldDecl.supported (d : FieldDecl N) : Bool :=
  d.exported &&
    match d.protoTag with
    | some t => t.fits d.ty && 1 ≤ t.fieldNum && t.fieldNum < 2 ^ 29
    | none => false

/-- A schema the codec supports, with different numbers in a struct. -/
structure SupportedSchema (N : Type) extends Schema N where
  supported : ∀ n, ∀ d ∈ fields n, d.supported = true
  nodup : ∀ n, ((fields n).map fun d => d.protoTag.map (·.fieldNum)).Nodup

end RanGame.Protocol
