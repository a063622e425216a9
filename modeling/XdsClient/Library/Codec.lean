import Mathlib.Tactic

/-! # Message codecs

A codec writes messages to bytes and fills a message from bytes. Bytes that do not parse may
still fill a part of it. `Codec.ofFields` builds the codec of a message whose fields are
length-delimited: a tag and a length as base-128 varints, then the payload, one record after
the other.
-/
namespace XdsClient.Library

structure Codec (M : Type*) where
  /-- A message with no field set. -/
  empty : M
  serialize : M → List UInt8
  parse : List UInt8 → Option M
  /-- What is left in an empty message by bytes that do not parse. -/
  residue : List UInt8 → M
  parse_serialize : ∀ m, parse (serialize m) = some m

namespace Codec
variable {M : Type*} (codec : Codec M) (bytes : List UInt8)

/-- What an empty message holds after the bytes were parsed into it. -/
def fill : M := (codec.parse bytes).getD (codec.residue bytes)

theorem fill_of_parse {m : M} (h : codec.parse bytes = some m) : codec.fill bytes = m := by
  rw [fill, h, Option.getD_some]

@[simp] theorem fill_serialize (m : M) : codec.fill (codec.serialize m) = m :=
  codec.fill_of_parse _ (codec.parse_serialize m)

end Codec

/-- Seven bits a byte, the lowest first; all bytes but the last have their high bit set. -/
def varint (n : ℕ) : List UInt8 :=
  if n < 128 then [UInt8.ofNat n] else UInt8.ofNat (n % 128 + 128) :: varint (n / 128)

def readVarint : List UInt8 → Option (ℕ × List UInt8)
  | [] => none
  | b :: bytes =>
    if b.toNat < 128 then some (b.toNat, bytes)
    else (readVarint bytes).map fun high => (b.toNat - 128 + 128 * high.1, high.2)

theorem readVarint_varint_append (n : ℕ) (rest : List UInt8) :
    readVarint (varint n ++ rest) = some (n, rest) := by
  induction n using Nat.strong_induction_on with
  | _ n ih =>
    rw [varint]
    split_ifs with hn
    · have hb : (UInt8.ofNat n).toNat = n := by simp; omega
      simp [readVarint, hb, hn]
    · have hb : (UInt8.ofNat (n % 128 + 128)).toNat = n % 128 + 128 := by simp; omega
      have hhigh := ih (n / 128) (by omega)
      have hsum : n % 128 + 128 * (n / 128) = n := Nat.mod_add_div n 128
      have hcontinued : ¬ n % 128 + 128 < 128 := by omega
      simp only [readVarint, List.cons_append, hb, if_neg hcontinued, hhigh, Option.map_some,
        Nat.add_sub_cancel, hsum]

theorem varint_ne_nil (n : ℕ) : varint n ≠ [] := by
  rw [varint]
  split_ifs <;> simp

abbrev Field := ℕ × List UInt8

def writeField (field : Field) : List UInt8 :=
  varint (8 * field.1 + 2) ++ (varint field.2.length ++ field.2)

/-- One length-delimited field from the front of the bytes; 2 is its wire type. -/
def readField (bytes : List UInt8) : Option (Field × List UInt8) :=
  (readVarint bytes).bind fun tag =>
    (readVarint tag.2).bind fun length =>
      if tag.1 % 8 = 2 ∧ length.1 ≤ length.2.length then
        some ((tag.1 / 8, length.2.take length.1), length.2.drop length.1)
      else none

theorem readField_writeField_append (field : Field) (rest : List UInt8) :
    readField (writeField field ++ rest) = some (field, rest) := by
  have htag : (8 * field.1 + 2) % 8 = 2 := by omega
  have hnumber : (8 * field.1 + 2) / 8 = field.1 := by omega
  simp [readField, writeField, List.append_assoc, readVarint_varint_append, htag, hnumber]

theorem writeField_ne_nil (field : Field) : writeField field ≠ [] := by
  intro h
  exact varint_ne_nil _ (List.append_eq_nil_iff.mp h).1

section Fields
variable {M : Type*} (assign : M → Field → Option M)

/-- Fill a message field by field, up to the first record that cannot be read or stored. The
flag tells whether all bytes were used. -/
def scan : ℕ → M → List UInt8 → Bool × M
  | _, m, [] => (true, m)
  | 0, m, _ :: _ => (false, m)
  | fuel + 1, m, b :: bytes =>
    match readField (b :: bytes) with
    | none => (false, m)
    | some (field, rest) =>
      match assign m field with
      | none => (false, m)
      | some m' => scan fuel m' rest

theorem scan_writeFields (fields : List Field) (m m' : M) (fuel : ℕ)
    (hfuel : (fields.flatMap writeField).length ≤ fuel) (h : fields.foldlM assign m = some m') :
    scan assign fuel m (fields.flatMap writeField) = (true, m') := by
  induction fields generalizing m fuel with
  | nil =>
    rcases Option.some.inj h with rfl
    cases fuel <;> rfl
  | cons field fields ih =>
    rw [List.foldlM_cons] at h
    obtain ⟨next, hassign, hrest⟩ := Option.bind_eq_some_iff.mp h
    rw [List.flatMap_cons] at hfuel ⊢
    have hread := readField_writeField_append field (fields.flatMap writeField)
    cases hfield : writeField field with
    | nil => exact absurd hfield (writeField_ne_nil field)
    | cons b tail =>
      rw [hfield, List.cons_append, List.length_cons] at hfuel
      rw [hfield, List.cons_append] at hread
      cases fuel with
      | zero => omega
      | succ fuel =>
        have hle : (fields.flatMap writeField).length ≤ fuel := by
          rw [List.length_append] at hfuel
          omega
        simp [scan, hread, hassign, ih next fuel hle hrest]

def Codec.ofFields (empty : M) (fields : M → List Field)
    (h : ∀ m, (fields m).foldlM assign empty = some m) : Codec M where
  empty := empty
  serialize m := (fields m).flatMap writeField
  parse bytes :=
    let filled := scan assign bytes.length empty bytes
    if filled.1 then some filled.2 else none
  residue bytes := (scan assign bytes.length empty bytes).2
  parse_serialize m := by
    have hscan := scan_writeFields assign (fields m) empty m _ le_rfl (h m)
    simp only [hscan, if_true]

end Fields

def utf8 (text : String) : List UInt8 := text.toUTF8.data.toList

def ofUtf8? (bytes : List UInt8) : Option String := String.fromUTF8? ⟨bytes.toArray⟩

@[simp] theorem ofUtf8?_utf8 (text : String) : ofUtf8? (utf8 text) = some text := by
  have hbytes : (⟨(utf8 text).toArray⟩ : ByteArray) = text.toUTF8 := by simp [utf8]
  have hvalid : text.toUTF8.IsValidUTF8 := text.isValidUTF8
  rw [ofUtf8?, hbytes, String.fromUTF8?, dif_pos hvalid]
  rfl

/-- The record of a string field; an empty string is not written. -/
def textField (number : ℕ) (text : String) : List Field :=
  if text = "" then [] else [(number, utf8 text)]

end XdsClient.Library
