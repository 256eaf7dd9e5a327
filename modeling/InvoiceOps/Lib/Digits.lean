import Mathlib.Data.List.Basic
import Mathlib.Tactic

/-! Positional notation. Fixed-width fields (`fixed b w n`) are what timestamps and identifiers
are printed with; variable-width decimals come from `Nat.toDigits`. Both are read back. -/

namespace Digits

/-- The last `w` digits of `n` in base `b`, most significant first. -/
def fixed (b : ℕ) : ℕ → ℕ → List Char
  | 0, _ => []
  | w + 1, n => fixed b w (n / b) ++ [Nat.digitChar (n % b)]

@[simp] theorem length_fixed (b w n : ℕ) : (fixed b w n).length = w := by
  induction w generalizing n with
  | zero => rfl
  | succ w ih => simp [fixed, ih]

theorem digitChar_inj : ∀ a < 16, ∀ b < 16, Nat.digitChar a = Nat.digitChar b → a = b := by
  decide

theorem fixed_inj {b : ℕ} (hb : 0 < b) (hb' : b ≤ 16) {w n m : ℕ} (hn : n < b ^ w)
    (hm : m < b ^ w) (h : fixed b w n = fixed b w m) : n = m := by
  induction w generalizing n m with
  | zero => simp at hn hm; omega
  | succ w ih =>
    obtain ⟨hhi, hlo⟩ := List.append_singleton_inj.1 h
    have hdiv : n / b = m / b := by
      apply ih _ _ hhi
      · rw [Nat.div_lt_iff_lt_mul hb, ← pow_succ]; exact hn
      · rw [Nat.div_lt_iff_lt_mul hb, ← pow_succ]; exact hm
    have hmod : n % b = m % b :=
      digitChar_inj _ ((Nat.mod_lt n hb).trans_le hb') _ ((Nat.mod_lt m hb).trans_le hb') hlo
    rw [← Nat.div_add_mod n b, ← Nat.div_add_mod m b, hdiv, hmod]

/-- Two texts that start with fields of one width agree on the field and on what follows. -/
theorem fixed_append_inj {b : ℕ} (hb : 0 < b) (hb' : b ≤ 16) {w n m : ℕ} {r r' : List Char}
    (hn : n < b ^ w) (hm : m < b ^ w) (h : fixed b w n ++ r = fixed b w m ++ r') :
    n = m ∧ r = r' := by
  obtain ⟨hf, hr⟩ := List.append_inj h (by simp)
  exact ⟨fixed_inj hb hb' hn hm hf, hr⟩

theorem toDigits_inj {n m : ℕ} (h : Nat.toDigits 10 n = Nat.toDigits 10 m) : n = m := by
  have := congrArg (fun cs => Nat.ofDigitChars 10 cs 0) h
  simpa using this

theorem isDigit_toDigits {n : ℕ} {c : Char} (h : c ∈ Nat.toDigits 10 n) : c.isDigit = true :=
  Nat.isDigit_of_mem_toDigits (by decide) (by decide) h

/-- The first character of a text is not a decimal digit. -/
def Stops (r : List Char) : Prop := ∀ c ∈ r.head?, c.isDigit = false

theorem takeWhile_toDigits {n : ℕ} {r : List Char} (hr : Stops r) :
    (Nat.toDigits 10 n ++ r).takeWhile Char.isDigit = Nat.toDigits 10 n := by
  rw [List.takeWhile_append_of_pos (fun c hc => isDigit_toDigits hc)]
  cases r with
  | nil => simp
  | cons c r => simp [hr c (by simp)]

/-- A printed number followed by something that is not a digit can be read back. -/
theorem toDigits_append_inj {n m : ℕ} {r r' : List Char} (hr : Stops r) (hr' : Stops r')
    (h : Nat.toDigits 10 n ++ r = Nat.toDigits 10 m ++ r') : n = m ∧ r = r' := by
  have hd : Nat.toDigits 10 n = Nat.toDigits 10 m := by
    have hn := takeWhile_toDigits (n := n) hr
    rw [h, takeWhile_toDigits hr'] at hn
    exact hn.symm
  refine ⟨toDigits_inj hd, ?_⟩
  rw [hd] at h
  exact List.append_cancel_left h

end Digits
