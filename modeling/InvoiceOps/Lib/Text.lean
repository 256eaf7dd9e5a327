import Mathlib.Data.List.TakeWhile
import Mathlib.Tactic.Common

/-! Text operations on characters: whitespace, stripping, splitting into words and reading an
integer, with the code points a Python string counts as whitespace. -/

namespace Text

def isSpace (c : Char) : Bool :=
  let n := c.toNat
  (9 ≤ n && n ≤ 13) || (28 ≤ n && n ≤ 32) || n == 0x85 || n == 0xa0 || n == 0x1680 ||
    (0x2000 ≤ n && n ≤ 0x200a) || n == 0x2028 || n == 0x2029 || n == 0x202f || n == 0x205f ||
    n == 0x3000

/-- The text without the characters satisfying `p` at its two ends. -/
def stripBy (p : Char → Bool) (cs : List Char) : List Char :=
  ((cs.dropWhile p).reverse.dropWhile p).reverse

def strip (s : String) : String := String.ofList (stripBy isSpace s.toList)

theorem stripBy_infix (p : Char → Bool) (cs : List Char) : stripBy p cs <:+: cs := by
  have hinit : stripBy p cs <+: cs.dropWhile p := by
    rw [stripBy, ← List.reverse_suffix, List.reverse_reverse]
    exact List.dropWhile_suffix p
  exact hinit.isInfix.trans (List.dropWhile_suffix p).isInfix

/-- Something remains exactly when some character does not belong to the stripped class. -/
theorem stripBy_ne_nil {p : Char → Bool} {cs : List Char} :
    stripBy p cs ≠ [] ↔ ∃ c ∈ cs, p c = false := by
  constructor
  · intro h
    by_contra hall
    have hp : ∀ c ∈ cs, p c = true := by
      intro c hc
      cases hpc : p c
      · exact absurd ⟨c, hc, hpc⟩ hall
      · rfl
    exact h (by simp [stripBy, List.dropWhile_eq_nil_iff.2 hp])
  · rintro ⟨c, hc, hpc⟩ h
    have h1 : ∀ x ∈ cs.dropWhile p, p x = true := by
      have := List.reverse_eq_nil_iff.1 h
      rw [List.dropWhile_eq_nil_iff] at this
      intro x hx
      exact this x (List.mem_reverse.2 hx)
    have hmem : c ∈ cs.dropWhile p := by
      rw [← List.takeWhile_append_dropWhile (p := p) (l := cs)] at hc
      rcases List.mem_append.1 hc with hc | hc
      · exact absurd (List.mem_takeWhile_imp hc) (by simp [hpc])
      · exact hc
    exact absurd (h1 c hmem) (by simp [hpc])

/-- A stripped text that is not empty stays non-empty when a part of the class is stripped. -/
theorem stripBy_stripBy_ne_nil {p q : Char → Bool} (hpq : ∀ c, q c = true → p c = true)
    {cs : List Char} (h : stripBy p cs ≠ []) : stripBy q (stripBy p cs) ≠ [] := by
  rw [stripBy_ne_nil]
  by_contra hall
  have hp : ∀ c ∈ stripBy p cs, p c = true := by
    intro c hc
    cases hqc : q c
    · exact absurd ⟨c, hc, hqc⟩ hall
    · exact hpq c hqc
  -- the first character that survives stripping is not in the class
  cases hd : (cs.dropWhile p).reverse.dropWhile p with
  | nil => exact h (by simp [stripBy, hd])
  | cons a t =>
    have ha : p a = true := hp a (by simp [stripBy, hd])
    have hnot := List.head_dropWhile_not p (l := (cs.dropWhile p).reverse) (by simp [hd])
    simp only [hd, List.head_cons, ha] at hnot
    exact absurd hnot (by decide)

theorem dropWhile_dropWhile {p : Char → Bool} {cs rs : List Char} (h : rs <+: cs.dropWhile p) : rs.dropWhile p = rs := by
  cases rs with
  | nil => rfl
  | cons c rs =>
    obtain ⟨t, ht⟩ := h
    have hnot := List.head_dropWhile_not p (l := cs) (by rw [← ht]; simp)
    simp only [← ht, List.cons_append, List.head_cons] at hnot
    exact List.dropWhile_cons_of_neg (by simp [hnot])

theorem stripBy_stripBy (p : Char → Bool) (cs : List Char) : stripBy p (stripBy p cs) = stripBy p cs := by
  have hpre : stripBy p cs <+: cs.dropWhile p := by
    rw [← List.reverse_suffix, stripBy, List.reverse_reverse]
    exact List.dropWhile_suffix p
  have hlast : (stripBy p cs).reverse.dropWhile p = (stripBy p cs).reverse := by
    rw [stripBy, List.reverse_reverse]
    exact dropWhile_dropWhile (List.prefix_refl _)
  rw [stripBy, dropWhile_dropWhile hpre, hlast, List.reverse_reverse]

theorem strip_strip (s : String) : strip (strip s) = strip s := by
  rw [strip, strip, String.toList_ofList, stripBy_stripBy]
/-- The maximal runs of non-blank characters. -/
def words (cs : List Char) : List (List Char) := (cs.splitOnP isSpace).filter (· ≠ [])

/-- The words joined by single blanks. -/
def joinWords (cs : List Char) : List Char := [' '].intercalate (words cs)

/-- The digits of a text in which single underscores may stand between two digits; `digit` gives
the value of a decimal digit character. -/
def digitsOf (digit : Char → Option ℕ) : List Char → Option (List ℕ)
  | [] => none
  | [c] => (digit c).map fun d => [d]
  | c :: '_' :: cs => (digit c).bind fun d => (digitsOf digit cs).map (d :: ·)
  | c :: cs => (digit c).bind fun d => (digitsOf digit cs).map (d :: ·)

def ofDigits (ds : List ℕ) : ℕ := ds.foldl (fun n d => 10 * n + d) 0

/-- The integer an optionally signed decimal text denotes, surrounding blanks ignored. -/
def readInt (digit : Char → Option ℕ) (s : String) : Option ℤ :=
  match stripBy isSpace s.toList with
  | '-' :: cs => (digitsOf digit cs).map fun ds => -(ofDigits ds : ℤ)
  | '+' :: cs => (digitsOf digit cs).map fun ds => (ofDigits ds : ℤ)
  | cs => (digitsOf digit cs).map fun ds => (ofDigits ds : ℤ)

/-- The digits of ASCII. -/
def asciiDigit (c : Char) : Option ℕ := if c.isDigit then some (c.toNat - 48) else none

example : readInt asciiDigit " 1_0 " = some 10 := by decide

theorem stripBy_eq_self {p : Char → Bool} {cs : List Char} (h : ∀ c ∈ cs, p c = false) : stripBy p cs = cs := by
  have hfirst : cs.dropWhile p = cs := by
    cases cs with
    | nil => rfl
    | cons c cs => exact List.dropWhile_cons_of_neg (by simp [h c (by simp)])
  have hlast : cs.reverse.dropWhile p = cs.reverse := by
    cases hrev : cs.reverse with
    | nil => rfl
    | cons c rest =>
      have hc : c ∈ cs := List.mem_reverse.1 (by simp [hrev])
      exact List.dropWhile_cons_of_neg (by simp [h c hc])
  rw [stripBy, hfirst, hlast, List.reverse_reverse]

theorem isDigit_bounds {c : Char} (h : c.isDigit = true) : 48 ≤ c.toNat ∧ c.toNat ≤ 57 := by
  simp only [Char.isDigit, Bool.and_eq_true, decide_eq_true_eq, UInt32.le_iff_toNat_le] at h
  exact h

theorem isSpace_of_isDigit {c : Char} (h : c.isDigit = true) : isSpace c = false := by
  have hbounds := isDigit_bounds h
  simp only [isSpace, Bool.or_eq_false_iff, Bool.and_eq_false_iff, decide_eq_false_iff_not, beq_eq_false_iff_ne]
  omega

theorem digitsOf_asciiDigit {cs : List Char} (hcs : cs ≠ []) (h : ∀ c ∈ cs, c.isDigit = true) :
    digitsOf asciiDigit cs = some (cs.map fun c => c.toNat - 48) := by
  fun_induction digitsOf asciiDigit cs with
  | case1 => exact absurd rfl hcs
  | case2 c => simp [asciiDigit, h c (by simp)]
  | case3 c cs => exact absurd (h '_' (by simp)) (by decide)
  | case4 c cs hne _ ih =>
    have hrest := ih (by rintro rfl; exact hne rfl) fun c' hc' => h c' (by simp [hc'])
    simp [asciiDigit, h c (by simp), hrest]

theorem readInt_toString (n : ℕ) : readInt asciiDigit (toString n) = some (n : ℤ) := by
  have hdigits : ∀ c ∈ Nat.toDigits 10 n, c.isDigit = true := fun c hc =>
    Nat.isDigit_of_mem_toDigits (by decide) (by decide) hc
  have hchars : (toString n).toList = Nat.toDigits 10 n := by
    rw [Nat.toString_eq_ofList_toDigits, String.toList_ofList]
  have hof : ofDigits ((Nat.toDigits 10 n).map fun c => c.toNat - 48) = n := by
    rw [ofDigits, List.foldl_map]
    exact Nat.ofDigitChars_ten_toDigits
  have hread : digitsOf asciiDigit (Nat.toDigits 10 n) = _ := digitsOf_asciiDigit Nat.toDigits_ne_nil hdigits
  have hstrip := stripBy_eq_self fun c hc => isSpace_of_isDigit (hdigits c hc)
  unfold readInt
  rw [hchars, hstrip]
  split
  · rename_i cs hcs
    exact absurd (hdigits '-' (by simp [hcs])) (by decide)
  · rename_i cs hcs
    exact absurd (hdigits '+' (by simp [hcs])) (by decide)
  · rw [hread, Option.map_some, hof]

end Text
