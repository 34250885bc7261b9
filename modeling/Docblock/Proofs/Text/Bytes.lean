import Mathlib.Data.List.Basic
import Docblock.Text.Basic

/-!
# Texts in bytes

A place in a text can be given by the number of bytes in front of it, counted in
the UTF-8 form of the text. A text can be cut only where a character ends, so a
slice between two such numbers need not exist; between the ends of characters
it does.
-/

namespace Docblock.Text

/-- The number of bytes of a text. -/
def byteLength : Text → Nat
  | [] => 0
  | c :: r => c.utf8Size + byteLength r

/-- The text from a byte on, if a character starts there or the text ends there. -/
def fromByte? : (offset : Nat) → Text → Option Text
  | 0, t => some t
  | _ + 1, [] => none
  | offset + 1, c :: r =>
    if c.utf8Size ≤ offset + 1 then fromByte? (offset + 1 - c.utf8Size) r else none

/-- The text in front of a byte, if a character starts there or the text ends
there. -/
def upToByte? : (offset : Nat) → Text → Option Text
  | 0, _ => some []
  | _ + 1, [] => none
  | offset + 1, c :: r =>
    if c.utf8Size ≤ offset + 1 then (upToByte? (offset + 1 - c.utf8Size) r).map (c :: ·) else none

/-- The text between two bytes. There is none when they are in the wrong order,
one of them lies behind the text or one is in the middle of a character. -/
def slice? (start stop : Nat) (t : Text) : Option Text :=
  if start ≤ stop then (upToByte? stop t).bind (fromByte? start) else none

@[simp] theorem byteLength_nil : byteLength [] = 0 := rfl

@[simp] theorem byteLength_cons (c : Char) (r : Text) :
    byteLength (c :: r) = c.utf8Size + byteLength r := rfl

/-- Lengths in bytes add up. -/
@[simp] theorem byteLength_append (a b : Text) :
    byteLength (a ++ b) = byteLength a + byteLength b := by
  induction a with
  | nil => rw [List.nil_append, byteLength_nil, Nat.zero_add]
  | cons c r ih =>
    rw [List.cons_append, byteLength_cons, byteLength_cons, ih, Nat.add_assoc]

/-- A text goes on behind its first part. -/
theorem fromByte?_append (a b : Text) : fromByte? (byteLength a) (a ++ b) = some b := by
  induction a with
  | nil => rw [byteLength_nil, List.nil_append, fromByte?]
  | cons c r ih =>
    obtain ⟨n, hn⟩ := Nat.exists_eq_succ_of_ne_zero (Nat.ne_of_gt c.utf8Size_pos)
    have hlength : byteLength (c :: r) = n + byteLength r + 1 := by
      rw [byteLength_cons, hn]
      omega
    have hrest : n + byteLength r + 1 - c.utf8Size = byteLength r := by omega
    rw [hlength, List.cons_append, fromByte?, if_pos (by omega), hrest, ih]

/-- A text can be cut behind its characters, wherever that is in bytes. -/
theorem upToByte?_append (a b : Text) : upToByte? (byteLength a) (a ++ b) = some a := by
  induction a with
  | nil => rw [byteLength_nil, List.nil_append, upToByte?]
  | cons c r ih =>
    obtain ⟨n, hn⟩ := Nat.exists_eq_succ_of_ne_zero (Nat.ne_of_gt c.utf8Size_pos)
    have hlength : byteLength (c :: r) = n + byteLength r + 1 := by
      rw [byteLength_cons, hn]
      omega
    have hrest : n + byteLength r + 1 - c.utf8Size = byteLength r := by omega
    rw [hlength, List.cons_append, upToByte?, if_pos (by omega), hrest, ih, Option.map_some]

/-- The text from a character on is the one from its first byte on. -/
theorem fromByte?_take (t : Text) (a : Nat) :
    fromByte? (byteLength (t.take a)) t = some (t.drop a) := by
  have h := fromByte?_append (t.take a) (t.drop a)
  rwa [List.take_append_drop] at h

/-- The place in bytes behind some characters is a place where a text can be cut. -/
theorem upToByte?_take (t : Text) (a : Nat) :
    upToByte? (byteLength (t.take a)) t = some (t.take a) := by
  have h := upToByte?_append (t.take a) (t.drop a)
  rwa [List.take_append_drop] at h

/-- There are no fewer bytes in front of a later character. -/
theorem byteLength_take_mono (t : Text) {a b : Nat} (h : a ≤ b) :
    byteLength (t.take a) ≤ byteLength (t.take b) := by
  obtain ⟨more, hmore⟩ := List.take_prefix_take_left (l := t) h
  rw [← hmore, byteLength_append]
  exact Nat.le_add_right _ _

/-- The bytes in front of characters are ordered as the characters. -/
theorem byteLength_take_le_iff (t : Text) {a b : Nat} (ha : a ≤ t.length) :
    byteLength (t.take a) ≤ byteLength (t.take b) ↔ a ≤ b := by
  constructor
  · intro hle
    by_contra hlt
    have hget : b < t.length := by omega
    have hsucc : byteLength (t.take (b + 1)) = byteLength (t.take b) + t[b].utf8Size := by
      rw [List.take_add_one, List.getElem?_eq_getElem hget, byteLength_append]
      simp
    have hmono := byteLength_take_mono t (Nat.lt_of_not_le hlt)
    have hpos := t[b].utf8Size_pos
    rw [Nat.succ_eq_add_one] at hmono
    omega
  · exact byteLength_take_mono t

/-- Between the ends of characters there is a slice. -/
theorem slice?_take (t : Text) {a b : Nat} (h : a ≤ b) :
    slice? (byteLength (t.take a)) (byteLength (t.take b)) t = some ((t.drop a).take (b - a)) := by
  have hfront : (t.take b).take a = t.take a := by rw [List.take_take, Nat.min_eq_left h]
  have hslice := fromByte?_take (t.take b) a
  rw [hfront, List.drop_take] at hslice
  rw [slice?, if_pos (byteLength_take_mono t h), upToByte?_take, Option.bind_some, hslice]

end Docblock.Text
