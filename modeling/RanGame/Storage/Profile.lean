import Mathlib.Data.List.Nodup
import Mathlib.Data.List.Perm.Basic
import RanGame.Lib.PartialMap

/-!
# Player profiles and their patches

`internal/storage/profile.go`: the profile of a player, and `applyPatchField`, which sets one field
of it by name. A key that begins with `extra.` and a key that is not the name of a field both go to
the map `Extra`, so `extra.a` and `a` are the same field. A value of the wrong type is ignored.

A patch is the list of its fields in the order in which they are taken, where the source ranges over
a map.
-/

namespace RanGame.Storage

open Function

/-- A value of a patch. `V` stands for maps and all other values. -/
inductive PatchVal (V : Type)
  | int (i : Int64)
  | int32 (i : Int32)
  | int64 (i : Int64)
  | map (m : V)
  | strings (l : List String)
  | other (v : V)
  deriving DecidableEq

structure PlayerProfile (V : Type) where
  uid : String
  level : Int32
  exp : Int64
  coin : Int64
  gem : Int64
  settings : Option V
  achievements : List String
  extra : PartialMap String (PatchVal V)

/-- The fields of a patch, in the order in which they are applied. -/
abbrev Patch (V : Type) := List (String × PatchVal V)

variable {V : Type}

def toInt32 : PatchVal V → Option Int32
  | .int i => some i.toInt32
  | .int32 i => some i
  | .int64 i => some i.toInt32
  | _ => none

def toInt64 : PatchVal V → Option Int64
  | .int i => some i
  | .int32 i => some i.toInt64
  | .int64 i => some i
  | _ => none

/-- The profile of a player who has none yet. -/
def PlayerProfile.zero : PlayerProfile V := ⟨"", 0, 0, 0, 0, none, [], fun _ => none⟩

/-- `Load` on a store that does not fail. -/
def load (stored : Option (PlayerProfile V)) : PlayerProfile V := stored.getD .zero

def applyPatchField (p : PlayerProfile V) (key : String) (val : PatchVal V) : PlayerProfile V :=
  match key.dropPrefix? "extra." with
  | some field => { p with extra := p.extra.insert field.copy val }
  | none =>
    match key with
    | "level" =>
      match toInt32 val with
      | some i => { p with level := i }
      | none => p
    | "exp" =>
      match toInt64 val with
      | some i => { p with exp := i }
      | none => p
    | "settings" =>
      match val with
      | .map m => { p with settings := some m }
      | _ => p
    | "achievements" =>
      match val with
      | .strings l => { p with achievements := l }
      | _ => p
    -- an unknown field goes to `Extra`
    | key => { p with extra := p.extra.insert key val }

def applyProfilePatch (p : PlayerProfile V) (fields : Patch V) : PlayerProfile V :=
  fields.foldl (fun p kv => applyPatchField p kv.1 kv.2) p

/-! ### What a patch sets -/

inductive Field
  | level
  | exp
  | settings
  | achievements
  | extra (name : String)
  deriving DecidableEq

namespace Field

abbrev Content (V : Type) : Field → Type
  | .level => Int32
  | .exp => Int64
  | .settings => Option V
  | .achievements => List String
  | .extra _ => Option (PatchVal V)

/-- The field that a key names. -/
def ofKey (key : String) : Field :=
  match key.dropPrefix? "extra." with
  | some field => .extra field.copy
  | none =>
    match key with
    | "level" => .level
    | "exp" => .exp
    | "settings" => .settings
    | "achievements" => .achievements
    | key => .extra key

/-- What a field becomes with a value, if the value has a type that goes there. -/
def accept : (f : Field) → PatchVal V → Option (f.Content V)
  | .level, val => toInt32 val
  | .exp, val => toInt64 val
  | .settings, .map m => some (some m)
  | .settings, _ => none
  | .achievements, .strings l => some l
  | .achievements, _ => none
  | .extra _, val => some (some val)

end Field

namespace PlayerProfile

def get (p : PlayerProfile V) : (f : Field) → f.Content V
  | .level => p.level
  | .exp => p.exp
  | .settings => p.settings
  | .achievements => p.achievements
  | .extra name => p.extra name

def set (p : PlayerProfile V) : (f : Field) → f.Content V → PlayerProfile V
  | .level, i => { p with level := i }
  | .exp, i => { p with exp := i }
  | .settings, m => { p with settings := m }
  | .achievements, l => { p with achievements := l }
  | .extra name, val => { p with extra := update p.extra name val }

@[simp] theorem get_set_self (p : PlayerProfile V) (f : Field) (v : f.Content V) :
    (p.set f v).get f = v := by
  cases f
  case extra name => exact update_self ..
  all_goals rfl

theorem get_set_of_ne (p : PlayerProfile V) {f g : Field} (h : g ≠ f) (v : f.Content V) :
    (p.set f v).get g = p.get g := by
  cases f <;> cases g
  case extra.extra name name' =>
    refine update_of_ne ?_ ..
    rintro rfl
    exact h rfl
  all_goals first | rfl | exact absurd rfl h

theorem set_comm (p : PlayerProfile V) {f g : Field} (h : f ≠ g) (v : f.Content V)
    (w : g.Content V) : (p.set f v).set g w = (p.set g w).set f v := by
  cases f <;> cases g
  case extra.extra name name' =>
    have hne : name ≠ name' := fun heq => h (congrArg _ heq)
    simp only [set, update_comm hne]
  all_goals first | rfl | exact absurd rfl h

end PlayerProfile

/-- `applyPatchField` sets the field that the key names, if the value goes there. -/
theorem applyPatchField_eq (p : PlayerProfile V) (key : String) (val : PatchVal V) {f : Field}
    (hf : Field.ofKey key = f) :
    applyPatchField p key val = match f.accept val with
      | some v => p.set f v
      | none => p := by
  unfold Field.ofKey at hf
  unfold applyPatchField
  generalize key.dropPrefix? "extra." = nested at hf ⊢
  rcases nested with _ | field
  · simp only at hf ⊢
    split at hf <;> subst hf
    case h_5 => rfl
    all_goals rcases val <;> rfl
  · subst hf
    rfl

/-- What a patch sets a field to: its last entry for the field with a proper value. -/
def assigned : Patch V → (f : Field) → Option (f.Content V)
  | [], _ => none
  | (key, val) :: fields, f =>
    (assigned fields f).or (if Field.ofKey key = f then f.accept val else none)

theorem get_applyPatchField (p : PlayerProfile V) (key : String) (val : PatchVal V) (f : Field) :
    (applyPatchField p key val).get f =
      (if Field.ofKey key = f then f.accept val else none).getD (p.get f) := by
  rw [applyPatchField_eq p key val rfl]
  split
  next v hv =>
    by_cases hf : Field.ofKey key = f
    · subst hf
      rw [if_pos rfl, hv, PlayerProfile.get_set_self, Option.getD_some]
    · rw [if_neg hf, PlayerProfile.get_set_of_ne p (Ne.symm hf), Option.getD_none]
  next hv =>
    by_cases hf : Field.ofKey key = f
    · subst hf
      rw [if_pos rfl, hv, Option.getD_none]
    · rw [if_neg hf, Option.getD_none]

/-- **A patch sets what it assigns.** -/
theorem get_applyProfilePatch (p : PlayerProfile V) (fields : Patch V) (f : Field) :
    (applyProfilePatch p fields).get f = (assigned fields f).getD (p.get f) := by
  induction fields generalizing p with
  | nil => rfl
  | cons kv fields ih =>
    obtain ⟨key, val⟩ := kv
    show (applyProfilePatch (applyPatchField p key val) fields).get f = _
    rw [ih, get_applyPatchField, assigned]
    rcases assigned fields f with _ | v <;> rfl

theorem applyPatchField_comm (p : PlayerProfile V) {kv kv' : String × PatchVal V}
    (h : Field.ofKey kv.1 ≠ Field.ofKey kv'.1) :
    applyPatchField (applyPatchField p kv.1 kv.2) kv'.1 kv'.2 =
      applyPatchField (applyPatchField p kv'.1 kv'.2) kv.1 kv.2 := by
  simp only [applyPatchField_eq _ _ _ rfl]
  split <;> split
  · exact p.set_comm h _ _
  all_goals rfl

theorem kept_applyPatchField (p : PlayerProfile V) (key : String) (val : PatchVal V) :
    (applyPatchField p key val).uid = p.uid ∧ (applyPatchField p key val).coin = p.coin ∧
      (applyPatchField p key val).gem = p.gem := by
  obtain ⟨f, hf⟩ : ∃ f, Field.ofKey key = f := ⟨_, rfl⟩
  rw [applyPatchField_eq p key val hf]
  split
  · cases f <;> exact ⟨rfl, rfl, rfl⟩
  · exact ⟨rfl, rfl, rfl⟩

theorem get_foldl_of_none (p : PlayerProfile V) (f : Field) {patches : List (Patch V)}
    (h : ∀ fields ∈ patches, assigned fields f = none) :
    (patches.foldl applyProfilePatch p).get f = p.get f := by
  induction patches generalizing p with
  | nil => rfl
  | cons fields patches ih =>
    rw [List.foldl_cons, ih _ fun fields' hf => h fields' (List.mem_cons_of_mem _ hf),
      get_applyProfilePatch, h fields (List.mem_cons_self ..), Option.getD_none]

/-- **The last patch of a field decides.** -/
theorem get_foldl_of_last (p : PlayerProfile V) (f : Field) {before after : List (Patch V)}
    {fields : Patch V} {v : f.Content V} (hv : assigned fields f = some v)
    (hafter : ∀ fields' ∈ after, assigned fields' f = none) :
    ((before ++ fields :: after).foldl applyProfilePatch p).get f = v := by
  rw [List.foldl_append, List.foldl_cons, get_foldl_of_none _ f hafter, get_applyProfilePatch, hv,
    Option.getD_some]

end RanGame.Storage
