import RanGame.Lib.Bytes

/-!
# Files of lines

A file is a list of bytes that is written at an offset and read line by line. Writing before its end
leaves what is behind the last byte written. Lines are read through a buffer of `max` bytes; a line
that does not fit into it with its newline ends the reading with an error. The last line may lack
its newline. A carriage return at the end of a line is dropped.
-/

namespace RanGame.LineFile

open List

/-! ### Writing -/

/-- Write at an offset. A gap is filled with zeros, and what is behind the data is left. -/
def writeAt (file : Bytes) (offset : ℕ) (data : Bytes) : Bytes :=
  if data = [] then file
  else file.take offset ++ List.replicate (offset - file.length) 0 ++ data ++
    file.drop (offset + data.length)

variable {file data : Bytes} {offset : ℕ}

theorem writeAt_eq (h : offset ≤ file.length) :
    writeAt file offset data = file.take offset ++ (data ++ file.drop (offset + data.length)) := by
  rw [writeAt]
  split
  next hdata =>
    subst hdata
    simp
  · rw [Nat.sub_eq_zero_of_le h, replicate_zero, append_nil, append_assoc]

theorem writeAt_length : writeAt file file.length data = file ++ data := by
  rw [writeAt_eq le_rfl, take_length, drop_eq_nil_of_le (Nat.le_add_right ..), append_nil]

theorem writeAt_nil : writeAt file offset [] = file := if_pos rfl

section

variable (h : offset ≤ file.length)

include h

theorem take_writeAt_of_le : (writeAt file offset data).take offset = file.take offset := by
  have hlen : (file.take offset).length = offset := length_take_of_le h
  rw [writeAt_eq h, take_left' hlen]

/-- **What is before the end of the data** is what was before the offset, and the data. -/
theorem take_writeAt :
    (writeAt file offset data).take (offset + data.length) = file.take offset ++ data := by
  have hlen : (file.take offset ++ data).length = offset + data.length := by
    rw [length_append, length_take_of_le h]
  rw [writeAt_eq h, ← append_assoc, take_left' hlen]

theorem le_length_writeAt : offset + data.length ≤ (writeAt file offset data).length := by
  rw [writeAt_eq h, length_append, length_append, length_take_of_le h]
  omega

theorem length_le_length_writeAt : file.length ≤ (writeAt file offset data).length := by
  rw [writeAt_eq h, length_append, length_append, length_take_of_le h, length_drop]
  omega

end

/-! ### Reading -/

/-- A line without a carriage return at its end. -/
def dropCR (line : Bytes) : Bytes := if line.getLast? = some 13 then line.dropLast else line

/-- Read lines; `line` is what has been read of the first one. -/
def scanFrom (max : ℕ) : Bytes → Bytes → List Bytes × Bool
  | line, [] =>
    if line = [] then ([], false)
    else if line.length < max then ([dropCR line], false)
    else ([], true)
  | line, b :: bs =>
    if b = 10 then
      if line.length < max then
        (dropCR line :: (scanFrom max [] bs).1, (scanFrom max [] bs).2)
      else ([], true)
    else scanFrom max (line ++ [b]) bs

/-- The lines of a text, and whether there was one too long for the buffer. -/
def scanLines (max : ℕ) (text : Bytes) : List Bytes × Bool := scanFrom max [] text

def joinLines (lines : List Bytes) : Bytes := lines.flatMap fun line => line ++ [10]

theorem joinLines_append (lines more : List Bytes) :
    joinLines (lines ++ more) = joinLines lines ++ joinLines more := flatMap_append ..

theorem joinLines_singleton (line : Bytes) : joinLines [line] = line ++ [10] := by
  rw [joinLines, flatMap_singleton]

theorem joinLines_cons (line : Bytes) (lines : List Bytes) :
    joinLines (line :: lines) = line ++ 10 :: joinLines lines := by
  rw [joinLines, flatMap_cons, append_assoc]
  rfl

theorem scanFrom_line (max : ℕ) {rest : Bytes} (front line : Bytes) (h : 10 ∉ line) :
    scanFrom max front (line ++ 10 :: rest) =
      if (front ++ line).length < max then
        (dropCR (front ++ line) :: (scanLines max rest).1, (scanLines max rest).2)
      else ([], true) := by
  induction line generalizing front with
  | nil =>
    rw [append_nil, nil_append, scanFrom, if_pos rfl]
    rfl
  | cons b bs ih =>
    have hb : b ≠ 10 := fun hb => h (hb ▸ mem_cons_self ..)
    have hbs : 10 ∉ bs := fun hmem => h (mem_cons_of_mem _ hmem)
    rw [cons_append, scanFrom, if_neg hb, ih (front ++ [b]) hbs, append_assoc, singleton_append]

theorem scanLines_line {max : ℕ} {line : Bytes} (h : 10 ∉ line) (hlen : line.length < max)
    (rest : Bytes) : scanLines max (line ++ 10 :: rest) =
      (dropCR line :: (scanLines max rest).1, (scanLines max rest).2) := by
  rw [scanLines, scanFrom_line max [] line h, nil_append, if_pos hlen]

/-- **A line that does not fit** ends the reading. -/
theorem scanLines_too_long {max : ℕ} {line : Bytes} (h : 10 ∉ line) (hlen : max ≤ line.length)
    (rest : Bytes) : scanLines max (line ++ 10 :: rest) = ([], true) := by
  rw [scanLines, scanFrom_line max [] line h, nil_append, if_neg (Nat.not_lt.mpr hlen)]

/-- **Lines that fit are read back.** -/
theorem scanLines_joinLines {max : ℕ} {lines : List Bytes} (h : ∀ line ∈ lines, 10 ∉ line)
    (hlen : ∀ line ∈ lines, line.length < max) :
    scanLines max (joinLines lines) = (lines.map dropCR, false) := by
  induction lines with
  | nil => rfl
  | cons line lines ih =>
    have hrest := ih (fun l hl => h l (mem_cons_of_mem _ hl))
      (fun l hl => hlen l (mem_cons_of_mem _ hl))
    rw [joinLines_cons, scanLines_line (h line (mem_cons_self ..))
      (hlen line (mem_cons_self ..)), hrest, map_cons]

theorem dropCR_concat {b : UInt8} (h : b ≠ 13) (line : Bytes) :
    dropCR (line ++ [b]) = line ++ [b] := by
  rw [dropCR, getLast?_concat, if_neg (fun hb => h (Option.some.inj hb))]

end RanGame.LineFile
