/-
  Stream ciphers: a state gives one key byte after the other, and a text is combined with them by
  exclusive or.  Encryption is decryption, and the state behind a text depends on its length only.
-/
import Mathlib.Data.List.Basic

namespace CLib

universe u

/-- A source of key bytes. -/
structure Keystream (κ : Type u) where
  next : κ → UInt8 × κ

namespace Keystream

variable {κ : Type u} (f : Keystream κ)

/-- The text combined with the key bytes, and the state behind it. -/
def crypt (s : κ) : List UInt8 → List UInt8 × κ
  | [] => ([], s)
  | b :: text =>
    let (k, s) := f.next s
    let (rest, s) := crypt s text
    ((b ^^^ k) :: rest, s)

@[simp] theorem crypt_nil (s : κ) : f.crypt s [] = ([], s) := rfl

theorem crypt_cons (s : κ) (b : UInt8) (text : List UInt8) :
    f.crypt s (b :: text) =
      ((b ^^^ (f.next s).1) :: (f.crypt (f.next s).2 text).1, (f.crypt (f.next s).2 text).2) := rfl

theorem crypt_length (s : κ) (text : List UInt8) : (f.crypt s text).1.length = text.length := by
  induction text generalizing s with
  | nil => rfl
  | cons b text ih => rw [crypt_cons, List.length_cons, List.length_cons, ih]

/-- Twice is not at all, and both times the state moves by the length of the text. -/
theorem crypt_crypt (s : κ) (text : List UInt8) :
    f.crypt s (f.crypt s text).1 = (text, (f.crypt s text).2) := by
  induction text generalizing s with
  | nil => rfl
  | cons b text ih =>
    rw [crypt_cons, crypt_cons]
    simp only [ih]
    rw [UInt8.xor_assoc, UInt8.xor_self, UInt8.xor_zero]

end Keystream
end CLib
