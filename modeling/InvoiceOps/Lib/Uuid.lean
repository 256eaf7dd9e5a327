import InvoiceOps.Lib.Digits
import Mathlib.Tactic

/-! 128-bit identifiers and their hyphenated lower-case text, which determines them. -/

structure Uuid where
  val : Fin (2 ^ 128)
deriving DecidableEq, Repr

namespace Uuid

def ofNat (n : ℕ) : Uuid := ⟨Fin.ofNat (2 ^ 128) n⟩

/-- Groups of 8, 4, 4, 4 and 12 hexadecimal digits. -/
def chars (u : Uuid) : List Char :=
  let n := u.val.val
  Digits.fixed 16 8 (n / 16 ^ 24) ++
    '-' :: (Digits.fixed 16 4 (n / 16 ^ 20 % 16 ^ 4) ++
      '-' :: (Digits.fixed 16 4 (n / 16 ^ 16 % 16 ^ 4) ++
        '-' :: (Digits.fixed 16 4 (n / 16 ^ 12 % 16 ^ 4) ++
          '-' :: Digits.fixed 16 12 (n % 16 ^ 12))))

def str (u : Uuid) : String := String.ofList u.chars

theorem length_chars (u : Uuid) : u.chars.length = 36 := by simp [chars]

theorem chars_inj {u v : Uuid} (h : u.chars = v.chars) : u = v := by
  obtain ⟨⟨n, hn⟩⟩ := u
  obtain ⟨⟨m, hm⟩⟩ := v
  have h0 : (0 : ℕ) < 16 := by norm_num
  simp only [chars] at h
  obtain ⟨h1, h⟩ := Digits.fixed_append_inj h0 le_rfl (by omega) (by omega) h
  obtain ⟨h2, h⟩ := Digits.fixed_append_inj h0 le_rfl (by omega) (by omega) (List.cons.inj h).2
  obtain ⟨h3, h⟩ := Digits.fixed_append_inj h0 le_rfl (by omega) (by omega) (List.cons.inj h).2
  obtain ⟨h4, h⟩ := Digits.fixed_append_inj h0 le_rfl (by omega) (by omega) (List.cons.inj h).2
  have h5 := Digits.fixed_inj h0 le_rfl (by omega) (by omega) (List.cons.inj h).2
  have : n = m := by omega
  subst this
  rfl

theorem str_inj {u v : Uuid} (h : u.str = v.str) : u = v :=
  chars_inj (String.ofList_injective h)

example : (ofNat 0x10).str = "00000000-0000-0000-0000-000000000010" := by decide

end Uuid
