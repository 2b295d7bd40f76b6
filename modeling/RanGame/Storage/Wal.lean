import RanGame.Lib.JsonScan
import RanGame.Lib.LineFile
import RanGame.Lib.Machine
import RanGame.Protocol.JsonCodec

/-!
# The write-ahead log as a file

`internal/storage/wal.go`, down to the bytes of `wal.log`. A record is one line of JSON. `Append`
writes the line at the offset `end`, which it keeps itself. `Replay` reads the whole file with a
`bufio.Scanner`, whose buffer is limited to 8 MiB, and truncates it when all records are handled.

A replay reads exactly the pending records, unless `Append` has accepted one that `Replay` cannot
read: a line that does not fit into the buffer, a value that is nested too deeply, or text that is
not UTF-8. A write may end early, the sync may fail (`Disk`), and the process may crash in the
middle of a write: bytes stay behind the offset, which the next append may not write over
altogether.
-/

namespace RanGame.Storage

open Json LineFile Protocol List Option Machine

/-! ### Records as lines -/

/-- `walRecord`. Strings are bytes. -/
structure LogRecord where
  ts : Int64
  table : Bytes
  key : Bytes
  /-- The value in JSON, empty for a removal. -/
  value : Bytes
  deleted : Bool
  deriving DecidableEq, Repr

namespace LogRecord

def zero : LogRecord := ⟨0, [], [], [], false⟩

/-- The member for the value, left out if empty, checked and written without spaces if not. -/
def valueMember (r : LogRecord) : Option (List (Bytes × Bytes)) :=
  if r.value = [] then some []
  else (compact (innerDepth + 1) r.value).map fun text => [(ascii "value", text)]

def members (r : LogRecord) : Option (List (Bytes × Bytes)) :=
  r.valueMember.map fun value =>
    [(ascii "ts", signedDecimal r.ts.toInt), (ascii "table", quote r.table),
      (ascii "key", quote r.key)] ++ value ++
      if r.deleted then [(ascii "deleted", ascii "true")] else []

def marshal (r : LogRecord) : Option Bytes := r.members.map printMembers

def fieldNames : List Bytes :=
  [ascii "ts", ascii "table", ascii "key", ascii "value", ascii "deleted"]

/-- The field of a key: the one with that name, or with that name up to case. -/
def fieldNo (key : Bytes) : Option ℕ :=
  match fieldNames.findIdx? fun name => name = key with
  | some i => some i
  | none => fieldNames.findIdx? fun name => foldName name = foldName key

/-- Decode one member. `null` leaves a field as it is, but for the raw value. -/
def store (r : LogRecord) (m : Bytes × Bytes) : Option LogRecord :=
  match fieldNo m.1 with
  | some 0 =>
    if jsonKind m.2 = .null then some r
    else
      match parseValue (.int .w64) m.2 with
      | some (.int i) => some { r with ts := Int64.ofInt i }
      | _ => none
  | some 1 =>
    if jsonKind m.2 = .null then some r
    else
      match parseValue .string m.2 with
      | some (.string s) => some { r with table := s }
      | _ => none
  | some 2 =>
    if jsonKind m.2 = .null then some r
    else
      match parseValue .string m.2 with
      | some (.string s) => some { r with key := s }
      | _ => none
  | some 3 => some { r with value := m.2 }
  | some 4 =>
    match jsonKind m.2 with
    | .null => some r
    | .bool => some { r with deleted := m.2 = ascii "true" }
    | _ => none
  | _ => some r

def storeAll (r : LogRecord) : List (Bytes × Bytes) → Option LogRecord
  | [] => some r
  | m :: ms => (r.store m).bind fun r' => r'.storeAll ms

/-- `json.Unmarshal`; `none` is an error. -/
def unmarshal (line : Bytes) : Option LogRecord :=
  if valid (innerDepth + 1) line then
    match jsonKind (skipSpace line) with
    | .null => some zero
    | .object =>
      match readMembers (scanValue innerDepth) (skipSpace line).tail with
      | some (ms, _) => zero.storeAll ms
      | none => none
    | _ => none
  else none

/-! ### What can be read back -/

/-- A record that its text gives back: table and key are UTF-8, the value JSON as `json.Marshal`
writes it, not too deep. -/
structure Canonical (r : LogRecord) : Prop where
  table_utf8 : coerce r.table = r.table
  key_utf8 : coerce r.key = r.key
  value_json : r.value ≠ [] → scanValue innerDepth r.value = some []
  value_compact : compactLoop false false 0 r.value = r.value
  value_line : 10 ∉ r.value

variable {r : LogRecord}

theorem Canonical.written (h : r.Canonical) (hne : r.value ≠ []) {depth : ℕ}
    (hdepth : innerDepth ≤ depth) : Written depth r.value :=
  written_of_scanValue (skipSpace_of_compactLoop h.value_compact) (h.value_json hne) hdepth

/-- The members of a record that can be read back. -/
def plainMembers (r : LogRecord) : List (Bytes × Bytes) :=
  [(ascii "ts", signedDecimal r.ts.toInt), (ascii "table", quote r.table),
    (ascii "key", quote r.key)] ++ (if r.value = [] then [] else [(ascii "value", r.value)]) ++
    if r.deleted then [(ascii "deleted", ascii "true")] else []

def text (r : LogRecord) : Bytes := printMembers r.plainMembers

theorem Canonical.members_eq (h : r.Canonical) : r.members = some r.plainMembers := by
  rw [members, valueMember, plainMembers]
  by_cases hne : r.value = []
  · rw [if_pos hne, if_pos hne, map_some]
  · have hcompact : compact (innerDepth + 1) r.value = some r.value := by
      rw [compact, if_pos (h.written hne (Nat.le_succ _)).valid, h.value_compact]
    rw [if_neg hne, if_neg hne, hcompact, map_some, map_some]

theorem Canonical.marshal_eq (h : r.Canonical) : r.marshal = some r.text := by
  rw [marshal, h.members_eq, map_some, text]

theorem forall_plainMembers {P : Bytes × Bytes → Prop}
    (hts : P (ascii "ts", signedDecimal r.ts.toInt)) (htable : P (ascii "table", quote r.table))
    (hkey : P (ascii "key", quote r.key)) (hvalue : r.value ≠ [] → P (ascii "value", r.value))
    (hdeleted : P (ascii "deleted", ascii "true")) : ∀ m ∈ r.plainMembers, P m := by
  rw [plainMembers]
  refine forall_mem_append.mpr ⟨forall_mem_append.mpr ⟨?_, ?_⟩, ?_⟩
  · exact forall_mem_cons.mpr ⟨hts, forall_mem_cons.mpr ⟨htable, forall_mem_singleton.mpr hkey⟩⟩
  · split
    · simp
    next hne => exact forall_mem_singleton.mpr (hvalue hne)
  · split
    · exact forall_mem_singleton.mpr hdeleted
    · simp

theorem Canonical.written_members (h : r.Canonical) :
    ∀ m ∈ r.plainMembers, Written innerDepth m.2 :=
  forall_plainMembers (P := fun m => Written innerDepth m.2) (written_signedDecimal _ _)
    (written_quote _ _) (written_quote _ _) (fun hne => h.written hne le_rfl) (written_true _)

theorem unmarshal_printMembers {ms : List (Bytes × Bytes)} (h : ∀ m ∈ ms, Written innerDepth m.2) :
    unmarshal (printMembers ms) = zero.storeAll (ms.map fun m => (coerce m.1, m.2)) := by
  have hobject := written_object h
  obtain ⟨bs, hbs, hread⟩ := readMembers_printMembers h []
  have hskip := hobject.skip []
  have hvalid := hobject.valid
  rw [append_nil] at hbs hskip
  rw [hbs] at hskip hvalid ⊢
  have hkind : jsonKind (123 :: bs) = .object := rfl
  simp only [unmarshal, hvalid, if_true, hskip, hkind, tail_cons, hread]

section store

variable (r)

theorem store_ts (i : Int64) :
    r.store (coerce (ascii "ts"), signedDecimal i.toInt) = some { r with ts := i } := by
  have hfield : fieldNo (coerce (ascii "ts")) = some 0 := by decide
  have hholds : IntSize.w64.holds i.toInt = true := by
    exact Bool.and_eq_true_iff.mpr ⟨decide_eq_true i.le_toInt, decide_eq_true i.toInt_lt⟩
  have hparse : parseValue (.int .w64) (signedDecimal i.toInt) = some (.int i.toInt) := by
    obtain ⟨raw, hraw, -, hparse, -⟩ := (Sendable.int hholds).exists_text
    cases hraw
    exact hparse
  have hnull : jsonKind (signedDecimal i.toInt) ≠ .null := by
    rw [jsonKind_signedDecimal]
    decide
  simp only [store, hfield, hnull, if_false, hparse, Int64.ofInt_toInt]

theorem parseValue_quote (s : Bytes) :
    jsonKind (quote s) ≠ .null ∧ parseValue .string (quote s) = some (.string (coerce s)) := by
  have hkind : jsonKind (quote s) = .string := rfl
  obtain ⟨raw, hraw, -, hparse, -⟩ := (Sendable.string s).exists_text
  cases hraw
  exact ⟨by rw [hkind]; decide, hparse⟩

theorem store_table (s : Bytes) :
    r.store (coerce (ascii "table"), quote s) = some { r with table := coerce s } := by
  have hfield : fieldNo (coerce (ascii "table")) = some 1 := by decide
  obtain ⟨hnull, hparse⟩ := parseValue_quote s
  simp only [store, hfield, hnull, if_false, hparse]

theorem store_key (s : Bytes) :
    r.store (coerce (ascii "key"), quote s) = some { r with key := coerce s } := by
  have hfield : fieldNo (coerce (ascii "key")) = some 2 := by decide
  obtain ⟨hnull, hparse⟩ := parseValue_quote s
  simp only [store, hfield, hnull, if_false, hparse]

theorem store_value (text : Bytes) :
    r.store (coerce (ascii "value"), text) = some { r with value := text } := by
  have hfield : fieldNo (coerce (ascii "value")) = some 3 := by decide
  simp only [store, hfield]

theorem store_deleted :
    r.store (coerce (ascii "deleted"), ascii "true") = some { r with deleted := true } := by
  have hfield : fieldNo (coerce (ascii "deleted")) = some 4 := by decide
  have hkind : jsonKind (ascii "true") = .bool := by decide
  simp only [store, hfield, hkind, decide_true]

end store

theorem Canonical.storeAll_plainMembers (h : r.Canonical) :
    zero.storeAll (r.plainMembers.map fun m => (coerce m.1, m.2)) = some r := by
  obtain ⟨ts, table, key, value, deleted⟩ := r
  have htable : coerce table = table := h.table_utf8
  have hkey : coerce key = key := h.key_utf8
  rw [plainMembers]
  simp only [cons_append, nil_append, map_cons, storeAll, store_ts, store_table,
    store_key, htable, hkey, bind_some]
  by_cases hne : value = []
  · cases deleted <;> simp [hne, storeAll, store_deleted, zero]
  · cases deleted <;> simp [hne, storeAll, store_deleted, store_value, zero]

/-- **A line of the log is decoded to the record it was made from.** -/
theorem Canonical.readBack (h : r.Canonical) : unmarshal r.text = some r := by
  rw [text, unmarshal_printMembers h.written_members, h.storeAll_plainMembers]

theorem Canonical.not_mem_text (h : r.Canonical) : 10 ∉ r.text := by
  have hquote : ∀ s : Bytes, ∀ b ∈ quote s, b ≠ 10 := by
    rintro s b hb rfl
    exact absurd (le_of_mem_quote hb) (by decide)
  have hmember : ∀ name text : Bytes, (∀ b ∈ text, b ≠ 10) →
      ∀ b ∈ printMember (name, text), b ≠ 10 := by
    intro name text htext
    rw [printMember]
    exact forall_mem_append.mpr ⟨hquote name, forall_mem_cons.mpr ⟨by decide, htext⟩⟩
  have hall : ∀ b ∈ r.text, b ≠ 10 := by
    refine forall_mem_printMembers (by decide) (by decide) (by decide) ?_
    refine forall_plainMembers (P := fun m => ∀ b ∈ printMember m, b ≠ 10) ?_ ?_ ?_ ?_ ?_
    · refine hmember _ _ fun b hb hten => ?_
      have hplain := isPlain_signedDecimal _ b hb
      rw [hten] at hplain
      cases hplain
    · exact hmember _ _ (hquote _)
    · exact hmember _ _ (hquote _)
    · exact fun _ => hmember _ _ fun b hb hten => h.value_line (hten ▸ hb)
    · have htrue : (10 : UInt8) ∉ ascii "true" := by decide
      exact hmember _ _ fun b hb hten => htrue (hten ▸ hb)
  exact fun hmem => hall 10 hmem rfl

theorem dropCR_text (r : LogRecord) : dropCR r.text = r.text := by
  rw [text, plainMembers, append_assoc, cons_append, printMembers, ← cons_append]
  exact dropCR_concat (by decide) _

theorem text_ne_nil (r : LogRecord) : r.text ≠ [] := by
  rw [text, plainMembers, append_assoc, cons_append, printMembers]
  exact cons_ne_nil _ _

/-- The scanner of `Replay` has a buffer of 8 MiB. -/
def maxLine : ℕ := 8 * 1024 * 1024

/-- A record that `Replay` can read: its line, with the newline, fits into the buffer. -/
structure Readable (r : LogRecord) : Prop extends r.Canonical where
  fits : r.text.length < maxLine

end LogRecord

/-! ### The log -/

inductive Disk
  | ok
  /-- `WriteAt` fails when this many bytes have been written. -/
  | writeFails (n : ℕ)
  | syncFails
  deriving DecidableEq, Repr

inductive AppendError
  | marshal
  /-- `storage/wal: closed` -/
  | closed
  | write
  | sync
  deriving DecidableEq, Repr

inductive ReplayError
  /-- `storage/wal: closed` -/
  | closed
  /-- `storage/wal: corrupt record` -/
  | corrupt
  /-- `bufio.ErrTooLong` -/
  | tooLong
  | handler
  deriving DecidableEq, Repr

/-- `WAL`, with the contents of its file. -/
structure WAL where
  file : Bytes
  /-- `end` -/
  endOffset : ℕ
  closed : Bool
  deriving DecidableEq, Repr

def openWAL (file : Bytes) : WAL := ⟨file, file.length, false⟩

/-- The lines as records up to the first error, and whether there was none. Empty ones are skipped.
-/
def decodeLines : List Bytes → List LogRecord × Bool
  | [] => ([], true)
  | line :: lines =>
    if line = [] then decodeLines lines
    else
      match LogRecord.unmarshal line with
      | none => ([], false)
      | some r => (r :: (decodeLines lines).1, (decodeLines lines).2)

/-- What the handler, which may fail at any record, is called with, and whether it has handled all.
-/
def passTo (handle : ℕ → LogRecord → Bool) : ℕ → List LogRecord → List LogRecord × Bool
  | _, [] => ([], true)
  | i, r :: rs =>
    if handle i r then (r :: (passTo handle (i + 1) rs).1, (passTo handle (i + 1) rs).2)
    else ([r], false)

/-- What `Replay` does: the log after it, its result, and what the handler was called with. -/
structure Replayed where
  wal : WAL
  count : ℕ
  err : Option ReplayError
  passed : List LogRecord
  deriving DecidableEq, Repr

namespace WAL

variable (w : WAL)

def write (data : Bytes) : WAL := { w with file := writeAt w.file w.endOffset data }

def append (r : LogRecord) (disk : Disk) : WAL × Option AppendError :=
  match r.marshal with
  | none => (w, some .marshal)
  | some text =>
    let line := text ++ [10]
    if w.closed then (w, some .closed)
    else
      match disk with
      | .ok => ({ w.write line with endOffset := w.endOffset + line.length }, none)
      | .writeFails n => (w.write (line.take n), some .write)
      | .syncFails => ({ w.write line with endOffset := w.endOffset + line.length }, some .sync)

def replay (handle : ℕ → LogRecord → Bool) : Replayed :=
  if w.closed then ⟨w, 0, some .closed, []⟩
  else
    let (lines, long) := scanLines LogRecord.maxLine w.file
    let (records, decoded) := decodeLines lines
    if !decoded then ⟨w, records.length, some .corrupt, []⟩
    else if long then ⟨w, 0, some .tooLong, []⟩
    else
      let (passed, handled) := passTo handle 0 records
      if !handled then ⟨w, records.length, some .handler, passed⟩
      else if records.length > 0 then
        ⟨{ w with file := [], endOffset := 0 }, records.length, none, passed⟩
      else ⟨w, records.length, none, passed⟩

end WAL

/-! ### The log in use -/

/-- A log, and the records accepted since the last replay that succeeded. -/
structure LogState where
  wal : WAL
  /-- History. -/
  pending : List LogRecord

inductive LogAct
  | append (r : LogRecord) (disk : Disk)
  | replay (handle : ℕ → LogRecord → Bool)
  | close
  | reopen
  /-- The process crashes in an append after this many bytes, and the log is opened again. -/
  | crash (r : LogRecord) (n : ℕ)

/-- The disk works, and the process does not crash. -/
def LogAct.diskWorks : LogAct → Bool
  | .append _ disk => disk = .ok
  | .crash _ _ => false
  | _ => true

/-- A record that `Append` accepts can be read. -/
def LogAct.Legible : LogAct → Prop
  | .append r _ => r.marshal ≠ none → r.Readable
  | _ => True

namespace LogState

def step (s : LogState) : LogAct → Option LogState
  | .append r disk =>
    let (w, err) := s.wal.append r disk
    some ⟨w, if err = none then s.pending ++ [r] else s.pending⟩
  | .replay handle =>
    let p := s.wal.replay handle
    some ⟨p.wal, if p.err = none then [] else s.pending⟩
  | .close => some { s with wal := { s.wal with closed := true } }
  | .reopen => if s.wal.closed then some { s with wal := openWAL s.wal.file } else none
  | .crash r n =>
    match r.marshal with
    | none => none
    | some text =>
      if s.wal.closed then none
      else some { s with wal := openWAL (s.wal.write ((text ++ [10]).take n)).file }

end LogState

def newLog : LogState := ⟨openWAL [], []⟩

/-! ### Replay -/

theorem decodeLines_text {rs : List LogRecord} (h : ∀ r ∈ rs, r.Canonical) :
    decodeLines (rs.map LogRecord.text) = (rs, true) := by
  induction rs with
  | nil => rfl
  | cons r rs ih =>
    have hr := (h r (mem_cons_self ..)).readBack
    have hrest := ih fun r' hr' => h r' (mem_cons_of_mem _ hr')
    rw [map_cons, decodeLines, if_neg r.text_ne_nil, hr]
    simp only [hrest]

theorem passTo_of_forall {handle : ℕ → LogRecord → Bool} (h : ∀ i r, handle i r = true) (i : ℕ)
    (rs : List LogRecord) : passTo handle i rs = (rs, true) := by
  induction rs generalizing i with
  | nil => rfl
  | cons r rs ih => rw [passTo, if_pos (h i r), ih (i + 1)]

namespace LogState

/-- Up to the offset, the file is the pending records. There may be something behind it. -/
structure Sound (s : LogState) : Prop where
  readable : ∀ r ∈ s.pending, r.Readable
  le_length : s.wal.endOffset ≤ s.wal.file.length
  take_eq : s.wal.file.take s.wal.endOffset = joinLines (s.pending.map LogRecord.text)

/-- Nothing is left behind the offset. -/
def Exact (s : LogState) : Prop := s.wal.file.length = s.wal.endOffset

instance (s : LogState) : Decidable s.Exact := inferInstanceAs (Decidable (_ = _))

variable {s s' : LogState}

theorem Sound.file_eq (h : s.Sound) (hexact : s.Exact) :
    s.wal.file = joinLines (s.pending.map LogRecord.text) := by
  rw [← h.take_eq, ← hexact, take_length]

theorem Sound.scanLines_eq (h : s.Sound) (hexact : s.Exact) :
    scanLines LogRecord.maxLine s.wal.file = (s.pending.map LogRecord.text, false) := by
  have hline : ∀ line ∈ s.pending.map LogRecord.text,
      10 ∉ line ∧ line.length < LogRecord.maxLine := by
    intro line hline
    obtain ⟨r, hr, rfl⟩ := mem_map.mp hline
    exact ⟨(h.readable r hr).not_mem_text, (h.readable r hr).fits⟩
  have hsame : (s.pending.map LogRecord.text).map dropCR = s.pending.map LogRecord.text := by
    rw [List.map_map]
    exact List.map_congr_left fun r _ => r.dropCR_text
  rw [h.file_eq hexact, scanLines_joinLines (fun l hl => (hline l hl).1) fun l hl => (hline l hl).2,
    hsame]

/-- **What a replay does** with nothing behind the offset: the pending records are handed over, and
the file is truncated if all were handled. -/
theorem Sound.replay_eq (h : s.Sound) (hexact : s.Exact) (hopen : s.wal.closed = false)
    (handle : ℕ → LogRecord → Bool) :
    s.wal.replay handle =
      if (passTo handle 0 s.pending).2 then
        ⟨⟨[], 0, false⟩, s.pending.length, none, (passTo handle 0 s.pending).1⟩
      else ⟨s.wal, s.pending.length, some .handler, (passTo handle 0 s.pending).1⟩ := by
  have hdecode := decodeLines_text fun r hr => (h.readable r hr).toCanonical
  rw [WAL.replay, hopen, if_neg Bool.false_ne_true, h.scanLines_eq hexact]
  simp only [hdecode, Bool.not_true, Bool.false_eq_true, if_false]
  cases hdone : (passTo handle 0 s.pending).2 with
  | false => simp
  | true =>
    simp only [Bool.not_true, Bool.false_eq_true, if_false, if_true]
    split
    · rfl
    · -- without records the file is empty already
      rename_i hnone
      have hpending : s.pending = [] := length_eq_zero_iff.mp (by omega)
      have hfile : s.wal.file = [] := by
        rw [h.file_eq hexact, hpending]
        rfl
      have hend : s.wal.endOffset = 0 := by
        rw [← hexact, hfile]
        rfl
      have hwal : s.wal = ⟨[], 0, false⟩ := by
        rw [← hfile, ← hend, ← hopen]
      rw [← hwal]

/-! ### The steps of the log -/

theorem sound_newLog : newLog.Sound where
  readable := by simp [newLog]
  le_length := le_rfl
  take_eq := rfl

theorem exact_openWAL (file : Bytes) (pending : List LogRecord) :
    Exact ⟨openWAL file, pending⟩ := rfl

theorem Sound.write (h : s.Sound) {r : LogRecord} (hr : r.Readable) {closed : Bool} :
    Sound ⟨⟨writeAt s.wal.file s.wal.endOffset (r.text ++ [10]),
      s.wal.endOffset + (r.text ++ [10]).length, closed⟩, s.pending ++ [r]⟩ where
  readable := forall_mem_append.mpr ⟨h.readable, forall_mem_singleton.mpr hr⟩
  le_length := le_length_writeAt h.le_length
  take_eq := by
    dsimp only
    rw [take_writeAt h.le_length, h.take_eq, map_append, map_singleton, joinLines_append,
      joinLines_singleton]

theorem Sound.writeBehind (h : s.Sound) (data : Bytes) : Sound ⟨s.wal.write data, s.pending⟩ where
  __ := h
  le_length := le_trans h.le_length (length_le_length_writeAt h.le_length)
  take_eq := (take_writeAt_of_le h.le_length).trans h.take_eq

theorem Sound.append (h : s.Sound) {r : LogRecord} {disk : Disk}
    (hr : r.marshal ≠ none → r.Readable) (hsync : disk ≠ .syncFails)
    (hstep : s.step (.append r disk) = some s') : s'.Sound := by
  simp only [LogState.step, WAL.append] at hstep
  cases htext : r.marshal with
  | none =>
    simp only [htext] at hstep
    cases hstep
    exact h
  | some text =>
    have hread : r.Readable := hr (by rw [htext]; exact some_ne_none _)
    obtain rfl : r.text = text := some.inj (hread.marshal_eq.symm.trans htext)
    simp only [htext] at hstep
    cases hclosed : s.wal.closed with
    | true =>
      rw [hclosed] at hstep
      cases hstep
      exact h
    | false =>
      rw [hclosed] at hstep
      cases disk with
      | ok =>
        cases hstep
        exact h.write hread
      | writeFails n =>
        cases hstep
        exact h.writeBehind _
      | syncFails => exact absurd rfl hsync

theorem Sound.reopen (h : s.Sound) (hexact : s.Exact) : Sound ⟨openWAL s.wal.file, s.pending⟩ where
  __ := h
  le_length := le_rfl
  take_eq := by
    rw [openWAL, take_length]
    exact h.file_eq hexact

theorem Sound.replay (h : s.Sound) {handle : ℕ → LogRecord → Bool}
    (hexact : s.wal.closed = false → s.Exact)
    (hstep : s.step (.replay handle) = some s') : s'.Sound := by
  cases hstep
  cases hopen : s.wal.closed with
  | true =>
    have hreplay : s.wal.replay handle = ⟨s.wal, 0, some .closed, []⟩ := by
      rw [WAL.replay, hopen, if_pos rfl]
    simp only [hreplay]
    exact h
  | false =>
    simp only [h.replay_eq (hexact hopen) hopen]
    split
    · exact ⟨by simp, le_rfl, rfl⟩
    · exact h

/-- Nothing is behind the offset when the file is read or opened, and no sync fails. -/
def Tidy (s : LogState) : LogAct → Prop
  | .append _ disk => disk ≠ .syncFails
  | .replay _ => s.wal.closed = false → s.Exact
  | .close => True
  | .reopen => s.Exact
  | .crash _ n => n = 0 ∧ s.Exact

/-- **One step.** -/
theorem Sound.step (h : s.Sound) {a : LogAct} (hlegible : a.Legible) (htidy : s.Tidy a)
    (hstep : s.step a = some s') : s'.Sound := by
  cases a with
  | append r disk => exact h.append hlegible htidy hstep
  | replay handle => exact h.replay htidy hstep
  | close =>
    cases hstep
    exact ⟨h.readable, h.le_length, h.take_eq⟩
  | reopen =>
    obtain ⟨-, ⟨⟩⟩ := ite_none_right_eq_some.mp hstep
    exact h.reopen htidy
  | crash r n =>
    obtain ⟨rfl, hexact⟩ := htidy
    simp only [LogState.step] at hstep
    split at hstep
    · cases hstep
    · split at hstep <;> cases hstep
      · rw [take_zero, WAL.write, writeAt_nil]
        exact h.reopen hexact

theorem Exact.step (h : s.Exact) {a : LogAct} (hworks : a.diskWorks = true)
    (hstep : s.step a = some s') : s'.Exact := by
  cases a with
  | append r disk =>
    obtain rfl : disk = .ok := of_decide_eq_true hworks
    simp only [LogState.step, WAL.append] at hstep
    cases htext : r.marshal with
    | none =>
      simp only [htext] at hstep
      cases hstep
      exact h
    | some text =>
      simp only [htext] at hstep
      cases hclosed : s.wal.closed with
      | true =>
        rw [hclosed] at hstep
        cases hstep
        exact h
      | false =>
        rw [hclosed] at hstep
        cases hstep
        show (writeAt s.wal.file s.wal.endOffset (text ++ [10])).length =
          s.wal.endOffset + (text ++ [10]).length
        rw [← h, writeAt_length, length_append]
  | replay handle =>
    cases hstep
    show (s.wal.replay handle).wal.file.length = (s.wal.replay handle).wal.endOffset
    rw [WAL.replay]
    repeat' split
    all_goals first
      | exact h
      | rfl
  | close =>
    cases hstep
    exact h
  | reopen =>
    obtain ⟨-, ⟨⟩⟩ := ite_none_right_eq_some.mp hstep
    rfl
  | crash r n => cases hworks

theorem Exact.tidy (h : s.Exact) {a : LogAct} (hworks : a.diskWorks = true) : s.Tidy a := by
  cases a with
  | append r disk =>
    rintro rfl
    cases hworks
  | replay handle => exact fun _ => h
  | close => trivial
  | reopen => exact h
  | crash r n => cases hworks

/-- **A replay passes on what is pending**, on a file system that works, if what `Append` has
accepted can be read: if the handler always succeeds, the records accepted since the last replay
that succeeded, in order, and empties the file. One that fails was stopped by its handler, and
changes nothing. -/
theorem replay_pending {acts : List LogAct} (hrun : run step newLog acts = some s)
    (hworks : ∀ a ∈ acts, a.diskWorks = true) (hlegible : ∀ a ∈ acts, a.Legible)
    (hopen : s.wal.closed = false) (handle : ℕ → LogRecord → Bool) :
    ∃ s', s.step (.replay handle) = some s' ∧
      ((∀ i r, handle i r = true) → (s.wal.replay handle).err = none ∧
        (s.wal.replay handle).passed = s.pending ∧ s'.wal.file = [] ∧ s'.pending = []) ∧
      ((s.wal.replay handle).err ≠ none → (s.wal.replay handle).err = some .handler ∧ s' = s) := by
  have hinv : s.Sound ∧ s.Exact := by
    refine invariant_of_run (I := fun s => s.Sound ∧ s.Exact) ?_ ⟨sound_newLog, exact_openWAL ..⟩
      ((along_of_forall_mem hworks).and (along_of_forall_mem hlegible)) hrun
    rintro r a r' ⟨hsound, hexact⟩ ⟨hw, hl⟩ hstep
    exact ⟨hsound.step hl (hexact.tidy hw) hstep, hexact.step hw hstep⟩
  have hreplay := hinv.1.replay_eq hinv.2 hopen handle
  refine ⟨_, rfl, ?_, ?_⟩
  · intro hall
    rw [passTo_of_forall hall] at hreplay
    simp [hreplay]
  · intro herr
    cases hdone : (passTo handle 0 s.pending).2 with
    | true =>
      rw [hdone] at hreplay
      rw [hreplay] at herr
      exact absurd rfl herr
    | false =>
      rw [hdone] at hreplay
      simp [hreplay]

/-- A write of `alice`, and a removal. -/
def aliceRecord : LogRecord := ⟨1, ascii "players", ascii "alice", ascii "[1,\"a b\"]", false⟩

def bobRecord : LogRecord := ⟨2, ascii "players", ascii "bob", [], true⟩

theorem readable_aliceRecord : aliceRecord.Readable where
  table_utf8 := by decide
  key_utf8 := by decide
  value_json _ := by decide +kernel
  value_compact := by decide
  value_line := by decide
  fits := by decide +kernel

theorem readable_bobRecord : bobRecord.Readable where
  table_utf8 := by decide
  key_utf8 := by decide
  value_json h := absurd rfl h
  value_compact := rfl
  value_line := by decide
  fits := by decide +kernel

/-- The first replay is stopped by its handler, and the log is opened again. -/
def stoppedActs : List LogAct :=
  [.append aliceRecord .ok, .replay fun _ _ => false, .close, .reopen, .append bobRecord .ok]

theorem replay_pending_reopened : ∃ s, run step newLog stoppedActs = some s ∧
    s.pending = [aliceRecord, bobRecord] ∧
      (s.wal.replay fun _ _ => true).passed = [aliceRecord, bobRecord] := by
  obtain ⟨s, hrun, hpending, hopen⟩ := exists_of_run step newLog stoppedActs
    (fun s => s.pending = [aliceRecord, bobRecord] ∧ s.wal.closed = false) (by decide +kernel)
  have hlegible : ∀ a ∈ stoppedActs, a.Legible := by
    simp [stoppedActs, LogAct.Legible, readable_aliceRecord, readable_bobRecord]
  obtain ⟨s', -, hall, -⟩ := replay_pending hrun (by simp [stoppedActs, LogAct.diskWorks]) hlegible
    hopen fun _ _ => true
  obtain ⟨-, hpassed, -⟩ := hall fun _ _ => rfl
  exact ⟨s, hrun, hpending, hpassed.trans hpending⟩

theorem step_append_of_exact (hexact : s.Exact) (hopen : s.wal.closed = false) {r : LogRecord}
    (hr : r.Canonical) : s.step (.append r .ok) =
      some ⟨openWAL (s.wal.file ++ (r.text ++ [10])), s.pending ++ [r]⟩ := by
  have hlength : s.wal.endOffset + (r.text ++ [10]).length =
      (s.wal.file ++ (r.text ++ [10])).length := by
    rw [← hexact]
    exact length_append.symm
  simp only [LogState.step, WAL.append, hr.marshal_eq, hopen, Bool.false_eq_true, if_false, if_true,
    hlength]
  rw [WAL.write, ← hexact, writeAt_length, hopen, openWAL]

/-- A write of a string of `n` letters. -/
def letters (n : ℕ) : LogRecord :=
  ⟨1, ascii "players", ascii "alice", quote (List.replicate n 97), false⟩

theorem quoteBody_replicate (n : ℕ) :
    quoteBody true 0 (List.replicate n 97) = List.replicate n 97 := by
  induction n with
  | zero => rfl
  | succ n ih =>
    rw [replicate_succ, quoteBody, if_pos (by decide), ih]
    rfl

theorem canonical_letters (n : ℕ) : (letters n).Canonical where
  table_utf8 := show coerce (ascii "players") = ascii "players" by decide
  key_utf8 := show coerce (ascii "alice") = ascii "alice" by decide
  value_json _ := by
    have hscan := (written_quote innerDepth (replicate n 97)).scan [] ends_nil
    rwa [append_nil] at hscan
  value_compact := by
    refine compactLoop_of_isPlain ?_ _ _
    rw [letters, quote, quoteBody_replicate]
    refine forall_mem_cons.mpr ⟨rfl, forall_mem_append.mpr ⟨?_, ?_⟩⟩
    · intro b hb
      rw [eq_of_mem_replicate hb]
      rfl
    · exact forall_mem_singleton.mpr rfl
  value_line hmem := absurd (le_of_mem_quote hmem) (by decide)

theorem le_length_text_letters (n : ℕ) : n ≤ (letters n).text.length := by
  have hquote : (letters n).value.length = n + 2 := by
    rw [letters, quote, quoteBody_replicate]
    simp
  have hne : (letters n).value ≠ [] := by
    rw [letters, quote]
    exact cons_ne_nil _ _
  have hdeleted : ¬ (letters n).deleted = true := Bool.false_ne_true
  rw [LogRecord.text, LogRecord.plainMembers, if_neg hne, if_neg hdeleted]
  simp only [cons_append, nil_append, append_nil, printMembers, printMore,
    printMember, length_cons, length_append, hquote]
  omega

theorem replay_of_too_long {n : ℕ} (hn : LogRecord.maxLine ≤ n) : ∃ s,
    run step newLog [.append (letters n) .ok, .append bobRecord .ok] = some s ∧
      s.pending = [letters n, bobRecord] ∧
      ∀ handle, s.wal.replay handle = ⟨s.wal, 0, some .tooLong, []⟩ := by
  have hletters := canonical_letters n
  have hbob := readable_bobRecord.toCanonical
  have hnew : newLog.Exact := exact_openWAL ..
  have hrun : run step newLog [.append (letters n) .ok, .append bobRecord .ok] =
      some ⟨openWAL (((letters n).text ++ [10]) ++ (bobRecord.text ++ [10])),
        [letters n, bobRecord]⟩ := by
    rw [run_cons, step_append_of_exact hnew rfl hletters, bind_some,
      run_cons, step_append_of_exact (exact_openWAL ..) rfl hbob, bind_some,
      run_nil]
    rfl
  have hscan : scanLines LogRecord.maxLine
      (((letters n).text ++ [10]) ++ (bobRecord.text ++ [10])) = ([], true) := by
    rw [append_assoc, singleton_append]
    exact scanLines_too_long hletters.not_mem_text (le_trans hn (le_length_text_letters n)) _
  refine ⟨_, hrun, rfl, fun handle => ?_⟩
  rw [WAL.replay]
  simp only [openWAL, hscan, Bool.false_eq_true, if_false, decodeLines, Bool.not_true, if_true]

/-- `Append` accepts a value of 8 MiB, and a removal. No replay gets beyond the first line, and the
file stays. -/
theorem huge_record_blocks_replay : ∃ s,
    run step newLog [.append (letters LogRecord.maxLine) .ok, .append bobRecord .ok] = some s ∧
      s.pending = [letters LogRecord.maxLine, bobRecord] ∧
      ∀ handle, s.wal.replay handle = ⟨s.wal, 0, some .tooLong, []⟩ :=
  replay_of_too_long le_rfl

/-! ### Faults -/

instance (s : LogState) (a : LogAct) : Decidable (s.Tidy a) :=
  match a with
  | .append _ disk => inferInstanceAs (Decidable (disk ≠ .syncFails))
  | .replay _ => inferInstanceAs (Decidable (s.wal.closed = false → s.Exact))
  | .close => inferInstanceAs (Decidable True)
  | .reopen => inferInstanceAs (Decidable s.Exact)
  | .crash _ n => inferInstanceAs (Decidable (n = 0 ∧ s.Exact))

/-- **A replay after faults** passes on exactly the records whose append has succeeded, in order, if
no sync has failed, and what a failed write has left is overwritten before the file is read or
opened. -/
theorem replay_after_faults {acts : List LogAct} (hrun : run step newLog acts = some s)
    (hlegible : ∀ a ∈ acts, a.Legible) (htidy : Along step Tidy newLog acts)
    (hopen : s.wal.closed = false) (hexact : s.Exact) (handle : ℕ → LogRecord → Bool)
    (hall : ∀ i r, handle i r = true) :
    (s.wal.replay handle).err = none ∧ (s.wal.replay handle).passed = s.pending := by
  have hsound : s.Sound := invariant_of_run (fun _ _ _ h ha hstep => h.step ha.1 ha.2 hstep)
    sound_newLog ((along_of_forall_mem hlegible).and htidy) hrun
  have hreplay := hsound.replay_eq hexact hopen handle
  rw [passTo_of_forall hall] at hreplay
  simp [hreplay]

/-- A write that fails half-way is overwritten, and a crash comes before anything is written. -/
def faultyActs : List LogAct :=
  [.append bobRecord (.writeFails 20), .append aliceRecord .ok, .crash bobRecord 0,
    .append bobRecord .ok]

theorem replay_after_faults_overwritten : ∃ s, run step newLog faultyActs = some s ∧
    s.pending = [aliceRecord, bobRecord] ∧
      (s.wal.replay fun _ _ => true).passed = [aliceRecord, bobRecord] := by
  obtain ⟨s, hrun, hpending, hopen, hexact⟩ := exists_of_run step newLog faultyActs
    (fun s => s.pending = [aliceRecord, bobRecord] ∧ s.wal.closed = false ∧ s.Exact)
    (by decide +kernel)
  have hlegible : ∀ a ∈ faultyActs, a.Legible := by
    simp [faultyActs, LogAct.Legible, readable_aliceRecord, readable_bobRecord]
  have hreplay := replay_after_faults hrun hlegible (by decide +kernel) hopen hexact
    (fun _ _ => true) fun _ _ => rfl
  exact ⟨s, hrun, hpending, hreplay.2.trans hpending⟩

/-- A sync fails: the record is passed on. A write fails and the next one is shorter, or the process
crashes in a line: the next record is not passed on. -/
theorem faults_break_replay : (∃ s, run step newLog [.append aliceRecord .syncFails] = some s ∧
      s.pending = [] ∧ (s.wal.replay fun _ _ => true).passed = [aliceRecord]) ∧
    (∃ s, run step newLog [.append aliceRecord (.writeFails 57), .append bobRecord .ok] = some s ∧
      s.pending = [bobRecord] ∧ (s.wal.replay fun _ _ => true).err = some .corrupt ∧
        (s.wal.replay fun _ _ => true).passed = []) ∧
    ∃ s, run step newLog [.crash aliceRecord 10, .append bobRecord .ok] = some s ∧
      s.pending = [bobRecord] ∧ (s.wal.replay fun _ _ => true).err = some .corrupt ∧
        (s.wal.replay fun _ _ => true).passed = [] := by
  refine ⟨?_, ?_, ?_⟩
  · exact exists_of_run _ _ _ _ (by decide +kernel)
  · exact exists_of_run _ _ _ _ (by decide +kernel)
  · exact exists_of_run _ _ _ _ (by decide +kernel)

end LogState

end RanGame.Storage
