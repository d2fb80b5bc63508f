/-
TextScript/Proofs/ByteOrder.lean

The order of strings and the order of their bytes.

Strings are compared by their code points, and elsewhere by the bytes that encode these.  Both
come to the same (`bytes_lt_iff`, `bytes_le_iff`).  A code point is encoded as a first byte and so
many more with six bits each (`utf8EncodeChar_eq`).  Greater code points have a greater first
byte, or as many more bytes of which the first that differs is greater (`lead_lt`), so encodings
compare as the code points do whatever follows them (`utf8EncodeChar_lt`).
-/
import Mathlib.Data.String.Basic
import TextScript.Failure.Suggestion

namespace TextScript.Utf8

variable {s t : String} {v w k : Nat} {c d : Char} {cs ds : List Char}

/-! ### The encoding of a code point -/

/-- The bytes with the last digits of a number, of six bits each. -/
def continuing : Nat → Nat → List UInt8
  | 0, _ => []
  | k + 1, v => UInt8.ofNat (v / 64 ^ k % 64 + 128) :: continuing k v

/-- How many bytes follow the first one. -/
def following (v : Nat) : Nat :=
  if v ≤ 127 then 0 else if v ≤ 2047 then 1 else if v ≤ 65535 then 2 else 3

/-- What a first byte has beside its digits, for the number of bytes that follow it. -/
def marker : Nat → Nat
  | 0 => 0
  | 1 => 192
  | 2 => 224
  | _ => 240

/-- The first byte. -/
def lead (v : Nat) : Nat :=
  v / 64 ^ following v + marker (following v)

/-- A first byte is followed by none to three others. -/
theorem following_cases (v : Nat) :
    v ≤ 127 ∧ following v = 0 ∨ 127 < v ∧ v ≤ 2047 ∧ following v = 1 ∨
      2047 < v ∧ v ≤ 65535 ∧ following v = 2 ∨ 65535 < v ∧ following v = 3 := by
  unfold following
  split
  · omega
  · split
    · omega
    · split <;> omega

theorem toNat_lt (c : Char) : c.toNat < 0x110000 := by
  rcases c.valid with h | ⟨-, h⟩
  · exact Nat.lt_trans h (by decide)
  · exact h

/-- A character is encoded as a first byte and digits. -/
theorem utf8EncodeChar_eq (c : Char) :
    String.utf8EncodeChar c =
      UInt8.ofNat (lead c.toNat) :: continuing (following c.toNat) c.toNat := by
  have hvalue : c.val.toNat = c.toNat := rfl
  have hbound := toNat_lt c
  unfold String.utf8EncodeChar lead
  simp only [hvalue]
  generalize c.toNat = v at hbound
  rcases following_cases v with ⟨h, hk⟩ | ⟨hlow, h, hk⟩ | ⟨hlow, h, hk⟩ | ⟨hlow, hk⟩
  · rw [if_pos h, hk]
    simp [marker, continuing]
  · have hdigit : v / 64 % 32 = v / 64 := Nat.mod_eq_of_lt (by omega)
    rw [if_neg (by omega), if_pos h, hk, hdigit]
    simp [marker, continuing]
  · have hdigit : v / 4096 % 16 = v / 4096 := Nat.mod_eq_of_lt (by omega)
    rw [if_neg (by omega), if_neg (by omega), if_pos h, hk, hdigit]
    simp [marker, continuing]
  · have hdigit : v / 262144 % 8 = v / 262144 := Nat.mod_eq_of_lt (by omega)
    rw [if_neg (by omega), if_neg (by omega), if_neg (by omega), hk, hdigit]
    simp [marker, continuing]

/-! ### Encodings compared -/

/-- A greater number has a greater first byte, or the same and greater digits behind it. -/
theorem lead_lt (h : v < w) (hw : w < 0x110000) :
    lead v < lead w ∨ lead v = lead w ∧ following v = following w ∧
      v % 64 ^ following v < w % 64 ^ following v := by
  unfold lead
  rcases following_cases v with hk | hk | hk | hk <;>
    rcases following_cases w with hk' | hk' | hk' | hk' <;>
      simp only [hk, hk', marker, true_and, Nat.pow_zero, Nat.div_one, Nat.reducePow] <;> omega

theorem lead_lt_size (hv : v < 0x110000) : lead v < UInt8.size := by
  show lead v < 256
  unfold lead
  rcases following_cases v with hk | hk | hk | hk <;> simp only [hk, marker] <;> omega

/-- Digits compare as the numbers that they write, whatever follows them. -/
theorem continuing_lt (h : v % 64 ^ k < w % 64 ^ k) (xs ys : List UInt8) :
    continuing k v ++ xs < continuing k w ++ ys := by
  induction k with
  | zero =>
    rw [Nat.pow_zero, Nat.mod_one, Nat.mod_one] at h
    exact absurd h (Nat.lt_irrefl 0)
  | succ k ih =>
    rw [Nat.mod_pow_succ, Nat.mod_pow_succ] at h
    have hv : v % 64 ^ k < 64 ^ k := Nat.mod_lt _ (Nat.pow_pos (by decide))
    have hw : w % 64 ^ k < 64 ^ k := Nat.mod_lt _ (Nat.pow_pos (by decide))
    have hsize : ∀ n, n % 64 + 128 < UInt8.size := by
      intro n
      show n % 64 + 128 < 256
      omega
    rw [continuing, continuing, List.cons_append, List.cons_append, List.cons_lt_cons_iff]
    -- the first digits decide unless they are the same, and the greater number has no smaller one
    rcases Nat.lt_trichotomy (v / 64 ^ k % 64) (w / 64 ^ k % 64) with hlt | heq | hgt
    · exact .inl ((UInt8.ofNat_lt_iff_lt (hsize _) (hsize _)).mpr (Nat.add_lt_add_right hlt 128))
    · rw [heq] at h ⊢
      exact .inr ⟨rfl, ih (Nat.lt_of_add_lt_add_right h)⟩
    · have hle := Nat.mul_le_mul_left (64 ^ k) (Nat.succ_le_of_lt hgt)
      rw [Nat.mul_succ] at hle
      omega

/-- Encodings compare as the code points do, whatever follows them. -/
theorem utf8EncodeChar_lt (h : c < d) (xs ys : List UInt8) :
    String.utf8EncodeChar c ++ xs < String.utf8EncodeChar d ++ ys := by
  have hlt : c.toNat < d.toNat := UInt32.lt_iff_toNat_lt.mp h
  rw [utf8EncodeChar_eq, utf8EncodeChar_eq, List.cons_append, List.cons_append,
    List.cons_lt_cons_iff]
  rcases lead_lt hlt (toNat_lt d) with hlead | ⟨hlead, hfollowing, hrest⟩
  · exact .inl
      ((UInt8.ofNat_lt_iff_lt (lead_lt_size (toNat_lt c)) (lead_lt_size (toNat_lt d))).mpr hlead)
  · rw [hlead, ← hfollowing]
    exact .inr ⟨rfl, continuing_lt hrest xs ys⟩

/-- Encoding keeps the order of rows of characters. -/
theorem flatMap_utf8EncodeChar_lt (h : cs < ds) :
    cs.flatMap String.utf8EncodeChar < ds.flatMap String.utf8EncodeChar := by
  induction cs generalizing ds with
  | nil =>
    cases ds with
    | nil => exact absurd h (List.not_lt_nil [])
    | cons d ds =>
      rw [List.flatMap_cons, utf8EncodeChar_eq]
      exact List.nil_lt_cons _ _
  | cons c cs ih =>
    cases ds with
    | nil => exact absurd h (List.not_lt_nil _)
    | cons d ds =>
      rw [List.flatMap_cons, List.flatMap_cons]
      rcases List.cons_lt_cons_iff.mp h with hlt | ⟨rfl, hrest⟩
      · exact utf8EncodeChar_lt hlt _ _
      · exact List.append_left_lt (ih hrest)

/-! ### Strings compared -/

open Suggestion (bytes)

/-- The bytes of a string are those of its characters. -/
theorem bytes_eq (s : String) : bytes s = s.toList.flatMap String.utf8EncodeChar := by
  have hbytes : s.toByteArray = (s.toList.flatMap String.utf8EncodeChar).toByteArray :=
    String.utf8Encode_toList.symm
  rw [bytes, String.toUTF8, hbytes]
  simp

theorem bytes_lt (h : s < t) : bytes s < bytes t := by
  rw [bytes_eq, bytes_eq]
  exact flatMap_utf8EncodeChar_lt (String.lt_iff_toList_lt.mp h)

/-- Strings compare as their bytes do. -/
theorem bytes_lt_iff : bytes s < bytes t ↔ s < t := by
  refine ⟨fun h => ?_, bytes_lt⟩
  rcases lt_trichotomy s t with hlt | rfl | hgt
  · exact hlt
  · exact absurd h (List.lt_irrefl _)
  · exact absurd h (List.lt_asymm (bytes_lt hgt))

/-- Strings are in the order of their bytes. -/
theorem bytes_le_iff : bytes s ≤ bytes t ↔ s ≤ t := by
  rw [← List.not_lt, bytes_lt_iff, not_lt]

end TextScript.Utf8
