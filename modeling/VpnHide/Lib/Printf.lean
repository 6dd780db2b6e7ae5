import Mathlib.Data.List.TakeDrop
import VpnHide.Lib.CString

/-!
# Text in a buffer of fixed size

`scnprintf` writes what fits, with room for a NUL, and says how much that was. Pieces written one behind the other are
cut where their text as a whole would be (`foldl_scnprintf`), so they are complete if and only if it fits
(`foldl_scnprintf_eq_iff`).
-/

namespace VpnHide

/-- `%u` -/
def decimal (n : ℕ) : List UInt8 := (Nat.toDigits 10 n).map Char.toUInt8

/-- `%d` -/
def decimalInt (i : Int) : List UInt8 := if i < 0 then '-'.toUInt8 :: decimal i.natAbs else decimal i.natAbs

def digits (n : ℕ) : ℕ := (Nat.toDigits 10 n).length

/-- The digits of a number and its sign. -/
def signedDigits (i : Int) : ℕ := if i < 0 then 1 + digits i.natAbs else digits i.natAbs

theorem digits_le {n k : ℕ} (hk : 0 < k) (h : n < 10 ^ k) : digits n ≤ k :=
  (Nat.length_toDigits_le_iff (by decide) hk).2 h

theorem length_decimal (n : ℕ) : (decimal n).length = digits n := List.length_map ..

theorem length_decimalInt (i : Int) : (decimalInt i).length = signedDigits i := by
  unfold decimalInt signedDigits
  split_ifs
  · rw [List.length_cons, length_decimal, Nat.add_comm]
  · exact length_decimal _

/-- `offset += scnprintf(buf + offset, capacity - offset, ...)`, with what has been written so far. -/
def scnprintf (capacity : ℕ) (written piece : List UInt8) : List UInt8 :=
  written ++ piece.take (capacity - written.length - 1)

theorem scnprintf_take (capacity : ℕ) (text piece : List UInt8) :
    scnprintf capacity (text.take (capacity - 1)) piece = (text ++ piece).take (capacity - 1) := by
  rw [scnprintf, List.take_append, List.length_take]
  congr 2
  omega

theorem foldl_scnprintf (capacity : ℕ) (text : List UInt8) (pieces : List (List UInt8)) :
    pieces.foldl (scnprintf capacity) (text.take (capacity - 1)) = (text ++ pieces.flatten).take (capacity - 1) := by
  induction pieces generalizing text with
  | nil => rw [List.foldl_nil, List.flatten_nil, List.append_nil]
  | cons piece pieces ih => rw [List.foldl_cons, scnprintf_take, ih, List.flatten_cons, List.append_assoc]

theorem foldl_scnprintf_nil (capacity : ℕ) (pieces : List (List UInt8)) :
    pieces.foldl (scnprintf capacity) [] = pieces.flatten.take (capacity - 1) := by
  have h := foldl_scnprintf capacity [] pieces
  rwa [List.take_nil, List.nil_append] at h

theorem foldl_scnprintf_eq_iff (capacity : ℕ) (pieces : List (List UInt8)) :
    pieces.foldl (scnprintf capacity) [] = pieces.flatten ↔ pieces.flatten.length ≤ capacity - 1 := by
  rw [foldl_scnprintf_nil]
  exact List.take_eq_self_iff _

end VpnHide
