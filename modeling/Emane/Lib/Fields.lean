import Mathlib
import Emane.Lib.Bytes

set_option autoImplicit false

/-! # Messages that are made of fields

A message is written as a sequence of fields, each a key and a number, a fixed-length number or a byte
string; the key says which field it is and which of the three. A reader takes the fields one after the
other and merges each into a message that begins with default values. It skips fields that it does not
know.

`Message.decode_encode` is the round trip of a message whose fields, merged one after the other, give the
message. How numbers are written is a parameter.
-/

namespace Emane.Lib

/-- A way to write numbers such that their end can be found. -/
structure NumberFormat where
  write : ℕ → Bytes
  read : Bytes → Option (ℕ × Bytes)
  write_ne_nil : ∀ n, write n ≠ []
  read_write : ∀ n rest, read (write n ++ rest) = some (n, rest)

inductive FieldValue
  | number (n : ℕ)
  | fixed (x : UInt64)
  | bytes (bs : Bytes)
  deriving DecidableEq

structure Field where
  key : ℕ
  value : FieldValue
  deriving DecidableEq

namespace NumberFormat

variable (format : NumberFormat)

/-! ## Fields -/

/-- A field. Fixed-length numbers are written with the last byte first. -/
def writeField (field : Field) : Bytes :=
  match field.value with
  | .number n => format.write (8 * field.key) ++ format.write n
  | .fixed x => format.write (8 * field.key + 1) ++ (toBeBytes x).reverse
  | .bytes bs => format.write (8 * field.key + 2) ++ (format.write bs.length ++ bs)

/-- The value behind a key of the given type. -/
def readValue (type : ℕ) (bs : Bytes) : Option (FieldValue × Bytes) :=
  match type with
  | 0 => (format.read bs).map fun r => (.number r.1, r.2)
  | 1 => if 8 ≤ bs.length then some (.fixed (fromBeBytes (bs.take 8).reverse), bs.drop 8) else none
  | 2 => (format.read bs).bind fun r =>
      if r.1 ≤ r.2.length then some (.bytes (r.2.take r.1), r.2.drop r.1) else none
  | _ => none

def readField (bs : Bytes) : Option (Field × Bytes) :=
  (format.read bs).bind fun r =>
    (format.readValue (r.1 % 8) r.2).map fun v => (⟨r.1 / 8, v.1⟩, v.2)

/-- The fields of a message; `fuel` is a bound on their number. -/
def readFields : ℕ → Bytes → Option (List Field)
  | _, [] => some []
  | 0, _ :: _ => none
  | fuel + 1, b :: bs =>
      (format.readField (b :: bs)).bind fun r => (readFields fuel r.2).map fun fields => r.1 :: fields

variable {format}

theorem readField_writeField (field : Field) (rest : Bytes) :
    format.readField (format.writeField field ++ rest) = some (field, rest) := by
  obtain ⟨key, value⟩ := field
  unfold readField writeField
  cases value with
  | number n =>
      have htype : 8 * key % 8 = 0 := by omega
      have hkey : 8 * key / 8 = key := by omega
      dsimp only
      rw [List.append_assoc, format.read_write, Option.bind_some, htype, hkey]
      simp only [readValue, format.read_write, Option.map_some]
  | fixed x =>
      have htype : (8 * key + 1) % 8 = 1 := by omega
      have hkey : (8 * key + 1) / 8 = key := by omega
      have hlength : (toBeBytes x).reverse.length = 8 := by
        rw [List.length_reverse, BigEndian.length_toBeBytes, width_uint64]
      have htake : ((toBeBytes x).reverse ++ rest).take 8 = (toBeBytes x).reverse := by
        rw [← hlength, List.take_left]
      have hdrop : ((toBeBytes x).reverse ++ rest).drop 8 = rest := by
        rw [← hlength, List.drop_left]
      dsimp only
      rw [List.append_assoc, format.read_write, Option.bind_some, htype, hkey]
      dsimp only
      rw [readValue, if_pos (by rw [List.length_append, hlength]; omega), htake, hdrop,
        List.reverse_reverse, BigEndian.fromBeBytes_toBeBytes]
      rfl
  | bytes bs =>
      have htype : (8 * key + 2) % 8 = 2 := by omega
      have hkey : (8 * key + 2) / 8 = key := by omega
      dsimp only
      rw [List.append_assoc, format.read_write, Option.bind_some, htype, hkey]
      dsimp only
      rw [readValue, List.append_assoc, format.read_write, Option.bind_some]
      dsimp only
      rw [if_pos (by rw [List.length_append]; omega), List.take_left, List.drop_left]
      rfl

theorem writeField_ne_nil (field : Field) : format.writeField field ≠ [] := by
  unfold writeField
  split <;> exact fun hnil => format.write_ne_nil _ (List.append_eq_nil_iff.mp hnil).1

/-- **The fields are read back.** -/
theorem readFields_writeField (fields : List Field) {fuel : ℕ}
    (hfuel : (fields.flatMap format.writeField).length ≤ fuel) :
    format.readFields fuel (fields.flatMap format.writeField) = some fields := by
  induction fields generalizing fuel with
  | nil => cases fuel <;> rfl
  | cons field fields ih =>
      rw [List.flatMap_cons] at hfuel ⊢
      have hne := List.length_pos_iff.mpr (@writeField_ne_nil format field)
      rw [List.length_append] at hfuel
      obtain ⟨fuel, rfl⟩ := Nat.exists_eq_succ_of_ne_zero (show fuel ≠ 0 by omega)
      obtain ⟨b, bs, hbytes⟩ := List.exists_cons_of_ne_nil
        (show format.writeField field ++ fields.flatMap format.writeField ≠ [] by
          exact fun hnil => writeField_ne_nil field (List.append_eq_nil_iff.mp hnil).1)
      rw [hbytes, readFields, ← hbytes, readField_writeField, Option.bind_some]
      dsimp only
      rw [ih (by omega)]
      rfl

end NumberFormat

/-! ## Messages -/

section

variable {α : Type}

/-- A kind of messages: their fields, and how a field is merged into one. -/
structure Message (α : Type) where
  default : α
  fields : α → List Field
  merge : α → Field → Option α
  merge_fields : ∀ a, (fields a).foldlM merge default = some a

def Message.encode (message : Message α) (format : NumberFormat) (a : α) : Bytes :=
  (message.fields a).flatMap format.writeField

def Message.decode (message : Message α) (format : NumberFormat) (bs : Bytes) : Option α :=
  (format.readFields bs.length bs).bind fun fields => fields.foldlM message.merge message.default

/-- **A message is read back.** -/
theorem Message.decode_encode (message : Message α) (format : NumberFormat) (a : α) :
    message.decode format (message.encode format a) = some a := by
  unfold decode encode
  rw [NumberFormat.readFields_writeField _ le_rfl, Option.bind_some, message.merge_fields]

variable {β : Type} (merge : α → Field → Option α) (field : β → Field)

/-- The fields of a list are merged one after the other. -/
theorem foldlM_repeated (set : List β → α)
    (h : ∀ xs x, merge (set xs) (field x) = some (set (xs ++ [x]))) (xs ys : List β) :
    (ys.map field).foldlM merge (set xs) = some (set (xs ++ ys)) := by
  induction ys generalizing xs with
  | nil => rw [List.append_nil]; rfl
  | cons y ys ih =>
      rw [List.map_cons, List.foldlM_cons, h, Option.bind_eq_bind, Option.bind_some, ih,
        List.append_assoc, List.singleton_append]

end

end Emane.Lib
