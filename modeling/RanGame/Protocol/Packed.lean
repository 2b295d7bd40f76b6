import RanGame.Protocol.Fields

/-!
# Packed repeated fields

A proto3 encoder may write an element of a repeated scalar field in a record of its own, or pack a
run of elements into one length-delimited record, which is the default. The decoder here tries to
store a packed piece in one element, which no scalar type accepts.
-/

namespace RanGame.Protocol

open Protowire List

variable {N : Type}

/-! ### The proto3 encoding of a repeated scalar field -/

/-- A piece of a repeated field. -/
inductive Piece
  | single (v : Value)
  | packed (vs : List Value)

def Piece.values : Piece → List Value
  | .single v => [v]
  | .packed vs => vs

def Piece.isPacked : Piece → Bool
  | .single _ => false
  | .packed _ => true

/-- The wire type of one value under a tag. -/
def FieldType.wire : FieldType → WireType
  | .varint => .varint
  | .fixed64 => .fixed64
  | .fixed32 => .fixed32
  | .bytes | .unknown _ => .bytes

/-- Is it the wire type of numbers? -/
def FieldType.isScalar : FieldType → Bool
  | .varint | .fixed64 | .fixed32 => true
  | .bytes | .unknown _ => false

/-- A number as proto3 writes it, without a tag. -/
def scalarBytes (ft : FieldType) (elem : GoType N) (v : Value) : Bytes :=
  match ft, v with
  | .fixed64, .float bits => appendFixed 8 bits
  | .fixed32, .float bits => appendFixed 4 bits
  | _, _ => appendVarint ((varintOf elem v).getD 0)

def Piece.record (t : ProtoTag) (elem : GoType N) : Piece → Bytes
  | .single v => appendTag (number t.fieldNum) t.wireType.wire ++ scalarBytes t.wireType elem v
  | .packed vs =>
    appendTag (number t.fieldNum) .bytes ++ appendBytes (vs.flatMap (scalarBytes t.wireType elem))

/-- A repeated field, written in the given pieces. -/
def encodePieces (t : ProtoTag) (elem : GoType N) (ps : List Piece) : Bytes :=
  ps.flatMap (Piece.record t elem)

/-- The same elements, each in a record of its own. -/
def unpacked (ps : List Piece) : List Piece := (ps.flatMap Piece.values).map .single

theorem unpacked_eq_self {ps : List Piece} (h : ∀ p ∈ ps, p.isPacked = false) :
    unpacked ps = ps := by
  induction ps with
  | nil => rfl
  | cons p ps ih =>
    have hps := ih fun q hq => h q (mem_cons_of_mem _ hq)
    cases p with
    | single v => simpa [unpacked, Piece.values] using hps
    | packed vs => exact absurd (h _ (mem_cons_self ..)) (by simp [Piece.isPacked])

theorem isPacked_of_mem_unpacked {ps : List Piece} {p : Piece} (h : p ∈ unpacked ps) :
    p.isPacked = false := by
  obtain ⟨v, -, rfl⟩ := mem_map.mp h
  rfl

/-! ### Decoding one piece -/

/-- What a number is received as: a signalling NaN of 32 bits becomes quiet on the way. -/
def received (ft : FieldType) (v : Value) : Value :=
  match ft, v with
  | .fixed32, .float bits => .float (quiet32 bits)
  | _, v => v

variable {S : Schema N} {sub : StructDecoder N} {elem : GoType N}

theorem unmarshalSingle_scalar {ft : FieldType} {v cur : Value} (hscalar : ft.isScalar = true)
    (hfit : ft.fits elem = true) (hv : S.conforms elem v = true) (rest : Bytes) :
    unmarshalSingle S sub ft.wire elem cur (scalarBytes ft elem v ++ rest)
      = .ok (received ft v, rest) := by
  cases ft with
  | varint =>
    obtain ⟨k, hk, hwrite, hread⟩ := ofVarint_varintOf hfit hv
    have hbytes : scalarBytes .varint elem v = appendVarint k := by simp [scalarBytes, hwrite]
    rw [hbytes, FieldType.wire, unmarshalSingle, consumeVarint_append hk]
    simp only [hread]
    rfl
  | fixed64 | fixed32 =>
    rcases elem with _ | _ | _ | _ | _ | _ | _ | _ | _ <;> try cases hfit
    rcases v with _ | _ | _ | bits | _ | _ | _ | _ | _ <;> try cases hv
    have hbits := of_decide_eq_true hv
    rw [scalarBytes, FieldType.wire, unmarshalSingle, consumeFixed_append hbits]
    rfl
  | bytes | unknown _ => cases hscalar

/-- The encoder writes a number as a record of its own, as it is received. -/
theorem marshalSingleValue_scalar {t : ProtoTag} {v : Value} (hscalar : t.wireType.isScalar = true)
    (hfit : t.wireType.fits elem = true) (hv : S.conforms elem v = true) :
    marshalSingleValue S t.fieldNum t.wireType elem v
      = .ok (Piece.record t elem (.single (received t.wireType v))) := by
  obtain ⟨ft, fn, rep⟩ := t
  cases ft with
  | varint =>
    obtain ⟨k, -, hwrite, -⟩ := ofVarint_varintOf hfit hv
    rcases elem with _ | _ | _ | _ | _ | _ | _ | _ | _ <;> try cases hfit
    all_goals simp only [marshalSingleValue, marshalScalar, hwrite, Piece.record, scalarBytes,
      received, FieldType.wire, Option.getD_some]
  | fixed64 | fixed32 =>
    rcases elem with _ | _ | _ | _ | _ | _ | _ | _ | _ <;> try cases hfit
    rcases v with _ | _ | _ | bits | _ | _ | _ | _ | _ <;> try cases hv
    rfl
  | bytes | unknown _ => cases hscalar

theorem ofBytes_scalar {ft : FieldType} (hscalar : ft.isScalar = true) (hfit : ft.fits elem = true)
    (cur : Value) (val : Bytes) : ofBytes S sub elem cur val = .error (.bytesInto elem.kind) := by
  cases ft <;> cases elem <;> first | rfl | (cases hscalar; done) | cases hfit

section Pieces

variable {S : SupportedSchema N} {n : N} {pre post : List (FieldDecl N)} {d : FieldDecl N}
  {t : ProtoTag} {elem : GoType N}

variable {done todo : List Value}

section

variable (h : S.FieldAt n pre d post t) (hrep : t.repeated = true) (hd : d.ty = .slice elem)
  (hscalar : t.wireType.isScalar = true)

include h hrep hd hscalar

/-- **An element in a record of its own** is appended to the slice. -/
theorem unmarshalStruct_single {v : Value} (hv : S.conforms elem v = true) {acc : List Value}
    (hdone : done.length = pre.length) (rest : Bytes) :
    unmarshalStruct S.toSchema n (Piece.record t elem (.single v) ++ rest)
        (done ++ .slice acc :: todo)
      = unmarshalStruct S.toSchema n rest
          (done ++ .slice (acc ++ [received t.wireType v]) :: todo) := by
  have hfield : unmarshalField S.toSchema (unmarshalStruct S.toSchema) t.wireType.wire d.ty
      t.repeated (.slice acc) (scalarBytes t.wireType elem v ++ rest)
        = .ok (.slice (acc ++ [received t.wireType v]), rest) := by
    rw [unmarshalField, if_pos hrep, hd, unmarshalRepeated,
      unmarshalSingle_scalar hscalar (fits_elem h hrep hd) hv]
    rfl
  rw [Piece.record, append_assoc, unmarshalStruct_store h hdone hfield]

/-- **A packed piece** fails the whole message. -/
theorem unmarshalStruct_packed {vs : List Value}
    (hlen : (Piece.record t elem (.packed vs)).length < 2 ^ 64) {acc : List Value}
    (hdone : done.length = pre.length) (rest : Bytes) :
    unmarshalStruct S.toSchema n (Piece.record t elem (.packed vs) ++ rest)
        (done ++ .slice acc :: todo)
      = .error (.field d.name (.bytesInto elem.kind)) := by
  have hval : (vs.flatMap (scalarBytes t.wireType elem)).length < 2 ^ 64 := by
    simp only [Piece.record, appendBytes, length_append] at hlen
    omega
  rw [Piece.record, append_assoc]
  refine unmarshalStruct_store_error h hdone ?_
  rw [unmarshalField, if_pos hrep, hd, unmarshalRepeated, unmarshalSingle, consumeBytes_append hval]
  simp only [ofBytes_scalar hscalar (fits_elem h hrep hd)]
  rfl

end

/-! ### Decoding the pieces of a field -/

theorem unmarshalStruct_pieces (h : S.FieldAt n pre d post t) (hrep : t.repeated = true)
    (hd : d.ty = .slice elem) (hscalar : t.wireType.isScalar = true)
    (hdone : done.length = pre.length) {ps : List Piece}
    (hv : ∀ p ∈ ps, ∀ v ∈ p.values, S.conforms elem v = true) (hps : ∀ p ∈ ps, p.isPacked = false)
    (acc : List Value) :
    unmarshalStruct S.toSchema n (encodePieces t elem ps) (done ++ .slice acc :: todo)
      = .ok (done ++
          .slice (acc ++ (ps.flatMap Piece.values).map (received t.wireType)) :: todo) := by
  induction ps generalizing acc with
  | nil => simp [encodePieces]
  | cons p ps ih =>
    have hps' := ih (fun q hq => hv q (mem_cons_of_mem _ hq))
      (fun q hq => hps q (mem_cons_of_mem _ hq))
    cases p with
    | single v =>
      have hconf := hv (.single v) (mem_cons_self ..) v (by simp [Piece.values])
      rw [encodePieces, flatMap_cons, unmarshalStruct_single h hrep hd hscalar hconf hdone]
      refine (hps' _).trans ?_
      simp [Piece.values]
    | packed vs => exact absurd (hps _ (mem_cons_self ..)) (by simp [Piece.isPacked])

theorem unmarshalStruct_pieces_packed (h : S.FieldAt n pre d post t) (hrep : t.repeated = true)
    (hd : d.ty = .slice elem) (hscalar : t.wireType.isScalar = true)
    (hdone : done.length = pre.length) {ps : List Piece}
    (hv : ∀ p ∈ ps, ∀ v ∈ p.values, S.conforms elem v = true)
    (hlen : (encodePieces t elem ps).length < 2 ^ 64) (hps : ∃ p ∈ ps, p.isPacked = true)
    (acc : List Value) :
    unmarshalStruct S.toSchema n (encodePieces t elem ps) (done ++ .slice acc :: todo)
      = .error (.field d.name (.bytesInto elem.kind)) := by
  induction ps generalizing acc with
  | nil => simp at hps
  | cons p ps ih =>
    rw [encodePieces, flatMap_cons, length_append] at hlen
    rw [encodePieces, flatMap_cons]
    cases p with
    | single v =>
      have hconf := hv (.single v) (mem_cons_self ..) v (by simp [Piece.values])
      rw [unmarshalStruct_single h hrep hd hscalar hconf hdone]
      refine ih (fun q hq => hv q (mem_cons_of_mem _ hq)) ?_ ?_ _
      · rw [encodePieces]
        omega
      · simpa [Piece.isPacked] using hps
    | packed vs => exact unmarshalStruct_packed h hrep hd hscalar (by omega) hdone _

theorem exists_split_of_fieldsConform {ds : List (FieldDecl N)} {fs : List Value}
    (hsplit : ds = pre ++ d :: post) (hd : d.ty = .slice elem)
    (hfs : S.fieldsConform ds fs = true) :
    ∃ done acc todo, fs = done ++ .slice acc :: todo ∧ done.length = pre.length := by
  subst hsplit
  induction pre generalizing fs with
  | nil =>
    rcases fs with _ | ⟨v, fs⟩
    · cases hfs
    · simp only [nil_append, Schema.fieldsConform, Bool.and_eq_true, hd] at hfs
      obtain ⟨hv, -⟩ := hfs
      rcases v with _ | _ | _ | _ | _ | acc | _ | _ | _ <;> try cases hv
      exact ⟨[], acc, fs, rfl, rfl⟩
  | cons e pre ih =>
    rcases fs with _ | ⟨v, fs⟩
    · cases hfs
    · simp only [cons_append, Schema.fieldsConform, Bool.and_eq_true] at hfs
      obtain ⟨done, acc, todo, rfl, hdone⟩ := ih hfs.2
      exact ⟨v :: done, acc, todo, rfl, by simp [hdone]⟩

end Pieces

/-- **Which proto3 encodings of a repeated scalar field are decoded.** The pieces of any values are
decoded as the unpacked encoding is exactly when none is packed. -/
theorem decode_pieces_iff (S : SupportedSchema N) {n : N} {pre post : List (FieldDecl N)}
    {d : FieldDecl N} {t : ProtoTag} {elem : GoType N} (h : S.FieldAt n pre d post t)
    (hrep : t.repeated = true) (hd : d.ty = .slice elem) (hscalar : t.wireType.isScalar = true)
    (ps : List Piece) (hv : ∀ p ∈ ps, ∀ v ∈ p.values, S.conforms elem v = true)
    (hlen : (encodePieces t elem ps).length < 2 ^ 64) {msg : Value}
    (hmsg : S.conforms (.struct n) msg = true) :
    (∃ out, unmarshal S.toSchema (encodePieces t elem (unpacked ps)) (.ptr (.struct n)) (.ref msg)
        = .ok out ∧
      unmarshal S.toSchema (encodePieces t elem ps) (.ptr (.struct n)) (.ref msg) = .ok out)
      ↔ ∀ p ∈ ps, p.isPacked = false := by
  rcases msg with _ | _ | _ | _ | _ | _ | fs | _ | _ <;> try cases hmsg
  obtain ⟨done, acc, todo, rfl, hdone⟩ := exists_split_of_fieldsConform h.split hd hmsg
  constructor
  · rintro ⟨out, -, hout⟩
    by_contra hpacked
    push Not at hpacked
    rw [unmarshal, unmarshalStruct_pieces_packed h hrep hd hscalar hdone hv hlen
      (by simpa using hpacked)] at hout
    cases hout
  · intro hps
    rw [unpacked_eq_self hps, unmarshal, unmarshalStruct_pieces h hrep hd hscalar hdone hv hps]
    exact ⟨_, rfl, rfl⟩

/-- The one field of `PlayReq` in `games/doudizhu/messages.go`. -/
def playReqIDs : FieldDecl Unit :=
  ⟨"IDs", "varint,1,rep,packed,name=ids,proto3", true, .slice (.int .native)⟩

/-- The tag of that field: the option `packed` makes no difference. -/
def playReqTag : ProtoTag := ⟨.varint, 1, true⟩

/-- `PlayReq` as a supported schema. -/
def playReqSchema : SupportedSchema Unit where
  fields _ := [playReqIDs]
  rank _ := 0
  rank_lt := by
    intro n d hd m hm
    obtain rfl := List.mem_singleton.mp hd
    cases hm
  supported _ := by decide
  nodup _ := by decide

theorem fieldAt_playReqIDs : playReqSchema.FieldAt () [] playReqIDs [] playReqTag :=
  ⟨rfl, by decide⟩

/-- A `PlayReq` with its cards written in the given pieces. -/
def playReqBytes (ps : List Piece) : Bytes :=
  encodePieces playReqTag (.int .native : GoType Unit) ps

theorem decode_pieces_iff_playReq : (∃ out, unmarshal playReqSchema.toSchema
          (playReqBytes (unpacked [.single (.int 3), .single (.int 115)]))
          (.ptr (.struct ())) (.ref (.struct [.slice []])) = .ok out ∧
      unmarshal playReqSchema.toSchema (playReqBytes [.single (.int 3), .single (.int 115)])
          (.ptr (.struct ())) (.ref (.struct [.slice []])) = .ok out)
      ↔ ∀ p ∈ [Piece.single (.int 3), .single (.int 115)], p.isPacked = false :=
  decode_pieces_iff playReqSchema fieldAt_playReqIDs rfl rfl rfl _
    (by simp [Piece.values, Schema.conforms, IntSize.holds, IntSize.bits]) (by decide +kernel)
    (by decide)

/-- The play of the cards 3 and 115 is refused as one packed record, but not as two records. -/
theorem packed_playReq_refused : playReqBytes [.packed [.int 3, .int 115]] = [10, 2, 3, 115] ∧
      unmarshal playReqSchema.toSchema [10, 2, 3, 115] (.ptr (.struct ()))
          (.ref (.struct [.slice []]))
        = .error (.field "IDs" (.bytesInto (.int .native))) ∧
      playReqBytes (unpacked [.packed [.int 3, .int 115]]) = [8, 3, 8, 115] ∧
      unmarshal playReqSchema.toSchema [8, 3, 8, 115] (.ptr (.struct ()))
          (.ref (.struct [.slice []]))
        = .ok (.ref (.struct [.slice [.int 3, .int 115]])) := by
  have hpacked : playReqBytes [.packed [.int 3, .int 115]] = [10, 2, 3, 115] := by decide +kernel
  have hsingle : playReqBytes (unpacked [.packed [.int 3, .int 115]]) = [8, 3, 8, 115] := by
    decide +kernel
  have hconf : ∀ v ∈ [Value.int 3, .int 115], playReqSchema.conforms (.int .native) v = true := by
    simp [Schema.conforms, IntSize.holds, IntSize.bits]
  have hrefused : unmarshalStruct playReqSchema.toSchema ()
      (playReqBytes [.packed [.int 3, .int 115]]) ([] ++ .slice [] :: [])
        = .error (.field "IDs" (.bytesInto (.int .native))) :=
    unmarshalStruct_pieces_packed fieldAt_playReqIDs rfl rfl rfl rfl
      (by simpa [Piece.values] using hconf) (by decide +kernel)
      ⟨_, mem_singleton_self _, rfl⟩ []
  have haccepted : unmarshalStruct playReqSchema.toSchema ()
      (playReqBytes (unpacked [.packed [.int 3, .int 115]])) ([] ++ .slice [] :: [])
        = .ok ([] ++ .slice [.int 3, .int 115] :: []) :=
    unmarshalStruct_pieces fieldAt_playReqIDs rfl rfl rfl rfl
      (by simpa [unpacked, Piece.values] using hconf) (fun _ => isPacked_of_mem_unpacked) []
  rw [hpacked, nil_append] at hrefused
  rw [hsingle, nil_append] at haccepted
  refine ⟨hpacked, ?_, hsingle, ?_⟩
  · rw [unmarshal, hrefused]
    rfl
  · rw [unmarshal, haccepted]
    rfl

end RanGame.Protocol
