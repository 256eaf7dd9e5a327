import Mathlib.Data.List.DropRight
import Mathlib.Tactic

/-! Base64 with the alphabet for URLs: four symbols for three bytes, `=` up to a multiple of four. A text is
read symbol by symbol, as `binascii` reads it: what is not in the alphabet is skipped, and enough padding ends
the text. -/

namespace Base64

def symbol (n : ℕ) : Char :=
  if n < 26 then Char.ofNat (65 + n)
  else if n < 52 then Char.ofNat (71 + n)
  else if n < 62 then Char.ofNat (n - 4)
  else if n = 62 then '-'
  else '_'

/-- The value of a symbol; those of the standard alphabet are read as well. -/
def value (c : Char) : Option ℕ :=
  if 'A' ≤ c ∧ c ≤ 'Z' then some (c.toNat - 65)
  else if 'a' ≤ c ∧ c ≤ 'z' then some (c.toNat - 71)
  else if '0' ≤ c ∧ c ≤ '9' then some (c.toNat + 4)
  else if c = '-' ∨ c = '+' then some 62
  else if c = '_' ∨ c = '/' then some 63
  else none

theorem value_symbol : ∀ n < 64, value (symbol n) = some n := by decide

theorem symbol_ne_pad : ∀ n < 64, symbol n ≠ '=' := by decide

def encode : List UInt8 → List Char
  | a :: b :: c :: rest =>
    symbol (a.toNat / 4) :: symbol (a.toNat % 4 * 16 + b.toNat / 16) ::
      symbol (b.toNat % 16 * 4 + c.toNat / 64) :: symbol (c.toNat % 64) :: encode rest
  | [a, b] => [symbol (a.toNat / 4), symbol (a.toNat % 4 * 16 + b.toNat / 16), symbol (b.toNat % 16 * 4), '=']
  | [a] => [symbol (a.toNat / 4), symbol (a.toNat % 4 * 16), '=', '=']
  | [] => []

/-- `quad` symbols of the current group have been read, `left` is what they leave over, and `pads` is the
padding since the last of them. -/
def decodeFrom (quad pads left : ℕ) : List Char → Option (List UInt8)
  | [] => if quad = 0 then some [] else none
  | c :: cs =>
    if c = '=' then
      if 2 ≤ quad then
        if 4 ≤ quad + (pads + 1) then some [] else decodeFrom quad (pads + 1) left cs
      else decodeFrom quad pads left cs
    else
      match value c with
      | none => decodeFrom quad pads left cs
      | some n =>
        if quad = 0 then decodeFrom 1 0 n cs
        else if quad = 1 then (decodeFrom 2 0 (n % 16) cs).map (UInt8.ofNat (left * 4 + n / 16) :: ·)
        else if quad = 2 then (decodeFrom 3 0 (n % 4) cs).map (UInt8.ofNat (left * 16 + n / 4) :: ·)
        else (decodeFrom 0 0 0 cs).map (UInt8.ofNat (left * 64 + n) :: ·)

def decode (cs : List Char) : Option (List UInt8) := decodeFrom 0 0 0 cs

/-- The text without its padding. -/
def unpad (cs : List Char) : List Char := cs.rdropWhile (· = '=')

/-- The text with the padding its length calls for. -/
def pad (cs : List Char) : List Char := cs ++ List.replicate ((4 - cs.length % 4) % 4) '='

section
variable {quad pads left n : ℕ} {cs : List Char}

theorem decodeFrom_symbol (hn : n < 64) : decodeFrom quad pads left (symbol n :: cs) =
    if quad = 0 then decodeFrom 1 0 n cs
    else if quad = 1 then (decodeFrom 2 0 (n % 16) cs).map (UInt8.ofNat (left * 4 + n / 16) :: ·)
    else if quad = 2 then (decodeFrom 3 0 (n % 4) cs).map (UInt8.ofNat (left * 16 + n / 4) :: ·)
    else (decodeFrom 0 0 0 cs).map (UInt8.ofNat (left * 64 + n) :: ·) := by
  rw [decodeFrom, if_neg (symbol_ne_pad n hn), value_symbol n hn]

theorem ofNat_eq {m : ℕ} {a : UInt8} (h : m = a.toNat) : UInt8.ofNat m = a := by
  rw [h, UInt8.ofNat_toNat]

theorem decode_encode (bs : List UInt8) : decode (encode bs) = some bs := by
  unfold decode
  induction bs using encode.induct with
  | case1 a b c rest ih =>
    have ha := a.toNat_lt
    have hb := b.toNat_lt
    have hc := c.toNat_lt
    rw [encode, decodeFrom_symbol (by omega), if_pos rfl, decodeFrom_symbol (by omega), if_neg (by omega), if_pos rfl,
      decodeFrom_symbol (by omega), if_neg (by omega), if_neg (by omega), if_pos rfl,
      decodeFrom_symbol (by omega), if_neg (by omega), if_neg (by omega), if_neg (by omega), ih]
    simp only [Option.map_some]
    rw [ofNat_eq (a := a) (by omega), ofNat_eq (a := b) (by omega), ofNat_eq (a := c) (by omega)]
  | case2 a b =>
    have ha := a.toNat_lt
    have hb := b.toNat_lt
    rw [encode, decodeFrom_symbol (by omega), if_pos rfl, decodeFrom_symbol (by omega), if_neg (by omega), if_pos rfl,
      decodeFrom_symbol (by omega), if_neg (by omega), if_neg (by omega), if_pos rfl]
    simp only [decodeFrom, if_true, Option.map_some]
    rw [if_pos (by omega), if_pos (by omega)]
    simp only [Option.map_some]
    rw [ofNat_eq (a := a) (by omega), ofNat_eq (a := b) (by omega)]
  | case3 a =>
    have ha := a.toNat_lt
    rw [encode, decodeFrom_symbol (by omega), if_pos rfl, decodeFrom_symbol (by omega), if_neg (by omega), if_pos rfl]
    rw [decodeFrom, if_pos rfl, if_pos le_rfl, if_neg (by omega), decodeFrom, if_pos rfl, if_pos le_rfl, if_pos (by omega)]
    simp only [Option.map_some]
    rw [ofNat_eq (a := a) (by omega)]
  | case4 => rfl

end

theorem unpad_symbol {n : ℕ} (hn : n < 64) (cs : List Char) (pre : List Char) :
    unpad (pre ++ symbol n :: cs) = pre ++ symbol n :: unpad cs := by
  have hlast : decide (symbol n = '=') = false := decide_eq_false (symbol_ne_pad n hn)
  simp only [unpad, List.rdropWhile, List.reverse_append, List.reverse_cons, List.append_assoc]
  rw [List.dropWhile_append]
  split_ifs with hempty
  · rw [List.isEmpty_iff.1 hempty, List.singleton_append, List.dropWhile_cons, hlast]
    simp
  · simp

/-- Nothing is lost with the padding. -/
theorem pad_unpad_encode (bs : List UInt8) : pad (unpad (encode bs)) = encode bs := by
  induction bs using encode.induct with
  | case1 a b c rest ih =>
    have hc := c.toNat_lt
    have hcut := unpad_symbol (n := c.toNat % 64) (by omega) (encode rest)
      [symbol (a.toNat / 4), symbol (a.toNat % 4 * 16 + b.toNat / 16), symbol (b.toNat % 16 * 4 + c.toNat / 64)]
    simp only [List.cons_append, List.nil_append] at hcut
    rw [encode, hcut]
    unfold pad at ih ⊢
    simp only [List.length_cons, List.cons_append]
    rw [show ((unpad (encode rest)).length + 1 + 1 + 1 + 1) % 4 = (unpad (encode rest)).length % 4 by omega, ih]
  | case2 a b =>
    have hb := b.toNat_lt
    have hcut := unpad_symbol (n := b.toNat % 16 * 4) (by omega) ['=']
      [symbol (a.toNat / 4), symbol (a.toNat % 4 * 16 + b.toNat / 16)]
    simp only [List.cons_append, List.nil_append] at hcut
    rw [encode, hcut]
    rfl
  | case3 a =>
    have hcut := unpad_symbol (n := a.toNat % 4 * 16) (by omega) ['=', '='] [symbol (a.toNat / 4)]
    simp only [List.cons_append, List.nil_append] at hcut
    rw [encode, hcut]
    rfl
  | case4 => rfl

end Base64
