import InvoiceOps.Extraction.Normalization
import InvoiceOps.Lib.Iso
import InvoiceOps.Lib.Rounding
import InvoiceOps.Lib.Spacing

/-! The renderings of an amount that `parse_money` reads. An amount with two decimals is written with or without
separators between its groups of digits, with a sign or in parentheses, and with a currency before or after it. The
normaliser finds the same amount in each of them: it takes off parentheses, currency and sign, and then decides from
the separators which of them is the decimal mark. -/

namespace InvoiceOps

open Text

/-- The digits with a separator wherever `cut` holds of the number of digits that follow. -/
def grouped (cut : ℕ → Bool) (separator : Char) : List Char → List Char
  | [] => []
  | [c] => [c]
  | c :: d :: ds =>
    if cut (ds.length + 1) then c :: separator :: grouped cut separator (d :: ds) else c :: grouped cut separator (d :: ds)

/-- `1,234,567` -/
def western (following : ℕ) : Bool := following % 3 == 0

/-- `12,34,567` -/
def indian (following : ℕ) : Bool := following == 3 || (3 < following && following % 2 == 1)

inductive NumberStyle
  | plain
  | westernComma
  | indianComma
  | dot
  | blankPoint (noBreak : Bool)
  | blankComma (noBreak : Bool)
deriving DecidableEq, Repr

namespace NumberStyle

def cut : NumberStyle → ℕ → Bool
  | .plain => fun _ => false
  | .indianComma => indian
  | _ => western

def separator : NumberStyle → Char
  | .dot => '.'
  | .blankPoint noBreak => if noBreak then '\u00a0' else ' '
  | .blankComma noBreak => if noBreak then '\u00a0' else ' '
  | _ => ','

def mark : NumberStyle → Char
  | .dot => ','
  | .blankComma _ => ','
  | _ => '.'

/-- A number of hundredths. -/
def number (style : NumberStyle) (hundredths : ℕ) : List Char :=
  grouped style.cut style.separator (Nat.toDigits 10 (hundredths / 100)) ++
    style.mark :: Digits.fixed 10 2 (hundredths % 100)

end NumberStyle

inductive SignStyle
  | none
  | plus
  | minus
  | parentheses
deriving DecidableEq, Repr

def SignStyle.chars : SignStyle → List Char
  | .plus => ['+']
  | .minus => ['-']
  | _ => []

def SignStyle.negative : SignStyle → Bool
  | .minus => true
  | .parentheses => true
  | _ => false

/-- The symbols that are dropped before a number. -/
def amountSymbols : List String := ["₹", "€", "£", "$"]

/-- How an amount is written: with a currency before it or after it, white space between them or not. -/
structure MoneyStyle where
  style : NumberStyle
  sign : SignStyle
  before : Option String
  beforeGap : List Char
  after : Option String
  afterGap : List Char
  before_mem : ∀ m ∈ before, m ∈ currencyCodes ∨ m ∈ amountSymbols
  after_mem : ∀ m ∈ after, m ∈ currencyCodes
  blanks : (∀ c ∈ beforeGap, isSpace c = true) ∧ ∀ c ∈ afterGap, isSpace c = true

namespace MoneyStyle

def inner (t : MoneyStyle) (hundredths : ℕ) : List Char :=
  (t.before.elim [] fun m => m.toList ++ t.beforeGap) ++
    ((t.sign.chars ++ t.style.number hundredths) ++ t.after.elim [] fun m => t.afterGap ++ m.toList)

def render (t : MoneyStyle) (hundredths : ℕ) : String :=
  String.ofList (if t.sign = .parentheses then '(' :: (t.inner hundredths ++ [')']) else t.inner hundredths)

/-- The amount that is written. -/
def amount (t : MoneyStyle) (hundredths : ℕ) : ℚ := if t.sign.negative then -(hundredths / 100) else hundredths / 100

end MoneyStyle

/-- A text in parentheses, or any other, without its currency. -/
def unmarked (cs : List Char) : List Char :=
  stripBy isSpace ((dropTrailingMark (dropLeadingMark cs)).dropWhile (· ∈ ['₹', '€', '£', '$']))

def readAmount (negativeParentheses : Bool) (normalized : List Char) : Option Decimal :=
  if amountShape normalized then
    (resolveSeparators ((normalized.dropWhile fun c => c == '+' || c == '-').filter (· ≠ ' '))).bind fun digits =>
      if plainNumber digits then
        (Decimal.readUnsigned false digits).map fun amount =>
          if negativeParentheses || decide (normalized.head? = some '-') then amount.minus 28 else amount
      else none
  else none

theorem parseMoney_eq {value : String} {cs : List Char}
    (h : stripBy isSpace ((normalizeWhitespace value).toList.map fun c => if c = '\u00a0' then ' ' else c) = cs) :
    parseMoney value =
      if cs.head? = some '(' ∧ cs.getLast? = some ')' then readAmount true (unmarked (stripBy isSpace cs.tail.dropLast))
      else readAmount false (unmarked cs) := by
  have hsteps : parseMoney value = readAmount (decide (cs.head? = some '(' ∧ cs.getLast? = some ')'))
      (unmarked (if decide (cs.head? = some '(' ∧ cs.getLast? = some ')') then stripBy isSpace cs.tail.dropLast else cs)) := by
    rw [← h]
    unfold parseMoney readAmount unmarked
    dsimp only
    generalize stripBy isSpace (List.dropWhile _ (dropTrailingMark _)) = normalized
    cases resolveSeparators ((normalized.dropWhile fun c => c == '+' || c == '-').filter (· ≠ ' ')) with
    | none => rfl
    | some digits => rfl
  rw [hsteps]
  by_cases hparentheses : cs.head? = some '(' ∧ cs.getLast? = some ')'
  · rw [if_pos hparentheses, decide_eq_true hparentheses, if_pos rfl]
  · rw [if_neg hparentheses, decide_eq_false hparentheses, if_neg Bool.false_ne_true]

section
variable {cut : ℕ → Bool} {separator : Char} {ds : List Char}

theorem mem_grouped {c : Char} (h : c ∈ grouped cut separator ds) : c ∈ ds ∨ c = separator := by
  fun_induction grouped cut separator ds with
  | case1 => cases h
  | case2 d => exact Or.inl h
  | case3 c' d ds hcut ih =>
    rcases List.mem_cons.1 h with rfl | h
    · exact Or.inl (List.mem_cons_self ..)
    · rcases List.mem_cons.1 h with rfl | h
      · exact Or.inr rfl
      · exact (ih h).imp (List.mem_cons_of_mem _) id
  | case4 c' d ds hcut ih =>
    rcases List.mem_cons.1 h with rfl | h
    · exact Or.inl (List.mem_cons_self ..)
    · exact (ih h).imp (List.mem_cons_of_mem _) id

/-- Without the separators there are the digits. -/
theorem filter_grouped {p : Char → Bool} (hds : ∀ c ∈ ds, p c = true) (hsep : p separator = false) :
    (grouped cut separator ds).filter p = ds := by
  fun_induction grouped cut separator ds with
  | case1 => rfl
  | case2 c => simp [hds c (by simp)]
  | case3 c d ds hcut ih =>
    obtain ⟨hc, hrest⟩ := List.forall_mem_cons.1 hds
    rw [List.filter_cons_of_pos hc, List.filter_cons_of_neg (by simp [hsep]), ih hrest]
  | case4 c d ds hcut ih =>
    obtain ⟨hc, hrest⟩ := List.forall_mem_cons.1 hds
    rw [List.filter_cons_of_pos hc, ih hrest]

theorem head?_grouped : (grouped cut separator ds).head? = ds.head? := by
  fun_cases grouped cut separator ds <;> rfl

/-- White space between the groups becomes blanks. -/
theorem squeezes_grouped (hne : ds ≠ []) (hds : ∀ c ∈ ds, c.isDigit = true) :
    Squeezes (grouped cut separator ds) (grouped cut (if isSpace separator then ' ' else separator) ds) := by
  fun_induction grouped cut separator ds with
  | case1 => exact absurd rfl hne
  | case2 c => exact .last (isSpace_of_isDigit (hds c (by simp)))
  | case3 c d ds hcut ih =>
    obtain ⟨hc, hrest⟩ := List.forall_mem_cons.1 hds
    have htail := ih (List.cons_ne_nil d ds) hrest
    rw [grouped, if_pos hcut]
    split_ifs with hsep
    · rw [if_pos hsep] at htail
      exact @Squeezes.gap c [separator] _ _ (isSpace_of_isDigit hc) (List.cons_ne_nil _ _) (by simpa using hsep) htail
    · rw [if_neg hsep] at htail
      exact .char (isSpace_of_isDigit hc) (.char (by simpa using hsep) htail)
  | case4 c d ds hcut ih =>
    obtain ⟨hc, hrest⟩ := List.forall_mem_cons.1 hds
    rw [grouped, if_neg hcut]
    exact .char (isSpace_of_isDigit hc) (ih (List.cons_ne_nil d ds) hrest)

end

section
variable {ds fp : List Char}

theorem not_mem_of_digits {c : Char} (hds : ∀ c ∈ ds, c.isDigit = true) (hc : c.isDigit = false) : c ∉ ds := by
  intro h
  rw [hds c h] at hc
  cases hc

/-- The last separator is the decimal mark. -/
theorem find?_mark {cs : List Char} {mark : Char} (hfp : ∀ c ∈ fp, c.isDigit = true) (hmark : mark = ',' ∨ mark = '.') :
    (cs ++ mark :: fp).reverse.find? (fun c => c == ',' || c == '.') = some mark := by
  have hnone : fp.reverse.find? (fun c => c == ',' || c == '.') = none := by
    rw [List.find?_eq_none]
    intro c hc hsep
    have hdigit := hfp c (List.mem_reverse.1 hc)
    rw [Bool.or_eq_true, beq_iff_eq, beq_iff_eq] at hsep
    rcases hsep with rfl | rfl
    · exact absurd hdigit (by decide)
    · exact absurd hdigit (by decide)
  rw [List.reverse_append, List.reverse_cons, List.append_assoc, List.find?_append, hnone, Option.none_or,
    List.singleton_append, List.find?_cons_of_pos]
  rcases hmark with rfl | rfl <;> rfl

theorem resolveSeparators_point (hds : ∀ c ∈ ds, c.isDigit = true) (hfp : ∀ c ∈ fp, c.isDigit = true) :
    resolveSeparators (ds ++ '.' :: fp) = some (ds ++ '.' :: fp) := by
  have hcomma : ',' ∉ ds ++ '.' :: fp := by
    simp [not_mem_of_digits hds (c := ',') (by decide), not_mem_of_digits hfp (c := ',') (by decide)]
  have hcount : (ds ++ '.' :: fp).count '.' = 1 := by
    simp [List.count_eq_zero.2 (not_mem_of_digits hds (c := '.') (by decide)),
      List.count_eq_zero.2 (not_mem_of_digits hfp (c := '.') (by decide))]
  rw [resolveSeparators, if_neg fun h => hcomma h.1, if_neg hcomma, hcount, if_neg (by decide)]

theorem resolveSeparators_comma (hds : ∀ c ∈ ds, c.isDigit = true) (hfp : ∀ c ∈ fp, c.isDigit = true)
    (hlength : fp.length = 2) : resolveSeparators (ds ++ ',' :: fp) = some (ds ++ '.' :: fp) := by
  have hcomma : ',' ∈ ds ++ ',' :: fp := by simp
  have hpoint : '.' ∉ ds ++ ',' :: fp := by
    simp [not_mem_of_digits hds (c := '.') (by decide), not_mem_of_digits hfp (c := '.') (by decide)]
  have hsplit : (ds ++ ',' :: fp).splitOn ',' = [ds, fp] := by
    rw [List.splitOn_append_cons_self_of_not_mem (not_mem_of_digits hds (by decide)),
      List.splitOn_eq_singleton (not_mem_of_digits hfp (by decide))]
  rw [resolveSeparators, if_neg fun h => hpoint h.2, if_pos hcomma, hsplit]
  simp [hlength]

/-- Groups between commas before a point. -/
theorem resolveSeparators_commaGroups {cut : ℕ → Bool} (hds : ∀ c ∈ ds, c.isDigit = true)
    (hfp : ∀ c ∈ fp, c.isDigit = true) :
    resolveSeparators (grouped cut ',' ds ++ '.' :: fp) = some (ds ++ '.' :: fp) := by
  have hne : ∀ c ∈ ds, decide (c ≠ ',') = true := fun c hc =>
    decide_eq_true fun h => not_mem_of_digits hds (by decide) (h ▸ hc)
  have hfilter : (grouped cut ',' ds).filter (fun c => decide (c ≠ ',')) = ds := filter_grouped hne (by decide)
  by_cases hcomma : ',' ∈ grouped cut ',' ds
  · have hfpfilter : fp.filter (fun c => decide (c ≠ ',')) = fp := List.filter_eq_self.2 fun c hc =>
      decide_eq_true fun h => not_mem_of_digits hfp (by decide) (h ▸ hc)
    have hboth : ',' ∈ grouped cut ',' ds ++ '.' :: fp ∧ '.' ∈ grouped cut ',' ds ++ '.' :: fp :=
      ⟨List.mem_append_left _ hcomma, by simp⟩
    rw [resolveSeparators, if_pos hboth, find?_mark hfp (Or.inr rfl), if_neg (by decide), List.filter_append, hfilter,
      List.filter_cons_of_pos (by decide), hfpfilter]
  · have hsame : grouped cut ',' ds = ds := by
      conv_rhs => rw [← hfilter]
      refine (List.filter_eq_self.2 fun c hc => decide_eq_true ?_).symm
      rintro rfl
      exact hcomma hc
    rw [hsame]
    exact resolveSeparators_point hds hfp

/-- Groups between points before a comma. -/
theorem resolveSeparators_pointGroups {cut : ℕ → Bool} (hds : ∀ c ∈ ds, c.isDigit = true)
    (hfp : ∀ c ∈ fp, c.isDigit = true) (hlength : fp.length = 2) :
    resolveSeparators (grouped cut '.' ds ++ ',' :: fp) = some (ds ++ '.' :: fp) := by
  have hne : ∀ c ∈ ds, decide (c ≠ '.') = true := fun c hc =>
    decide_eq_true fun h => not_mem_of_digits hds (by decide) (h ▸ hc)
  have hfilter : (grouped cut '.' ds).filter (fun c => decide (c ≠ '.')) = ds := filter_grouped hne (by decide)
  by_cases hpoint : '.' ∈ grouped cut '.' ds
  · have hfpfilter : fp.filter (fun c => decide (c ≠ '.')) = fp := List.filter_eq_self.2 fun c hc =>
      decide_eq_true fun h => not_mem_of_digits hfp (by decide) (h ▸ hc)
    have hsame : ∀ {xs : List Char}, (∀ c ∈ xs, c.isDigit = true) → xs.map (fun c => if c = ',' then '.' else c) = xs := by
      intro xs hxs
      refine (List.map_congr_left fun c hc => if_neg ?_).trans (List.map_id xs)
      rintro rfl
      exact absurd (hxs _ hc) (by decide)
    have hboth : ',' ∈ grouped cut '.' ds ++ ',' :: fp ∧ '.' ∈ grouped cut '.' ds ++ ',' :: fp :=
      ⟨by simp, List.mem_append_left _ hpoint⟩
    rw [resolveSeparators, if_pos hboth, find?_mark hfp (Or.inl rfl), if_pos rfl, List.filter_append, hfilter,
      List.filter_cons_of_pos (by decide), hfpfilter, List.map_append, List.map_cons, hsame hds, hsame hfp, if_pos rfl]
  · have hsame : grouped cut '.' ds = ds := by
      conv_rhs => rw [← hfilter]
      refine (List.filter_eq_self.2 fun c hc => decide_eq_true ?_).symm
      rintro rfl
      exact hpoint hc
    rw [hsame]
    exact resolveSeparators_comma hds hfp hlength

theorem plainNumber_point (hne : ds ≠ []) (hds : ∀ c ∈ ds, c.isDigit = true) (hfpne : fp ≠ [])
    (hfp : ∀ c ∈ fp, c.isDigit = true) : plainNumber (ds ++ '.' :: fp) = true := by
  have hsplit : (ds ++ '.' :: fp).splitOn '.' = [ds, fp] := by
    rw [List.splitOn_append_cons_self_of_not_mem (not_mem_of_digits hds (by decide)),
      List.splitOn_eq_singleton (not_mem_of_digits hfp (by decide))]
  have hdsall : ds.all Char.isDigit = true := List.all_eq_true.2 hds
  have hfpall : fp.all Char.isDigit = true := List.all_eq_true.2 hfp
  simp [plainNumber, hsplit, hne, hfpne, hdsall, hfpall]

end

/-- The characters of a number with its sign. -/
def isAmountChar (c : Char) : Bool := c.isDigit || [' ', ',', '.', '+', '-'].contains c

def wholeDigits (hundredths : ℕ) : List Char := Nat.toDigits 10 (hundredths / 100)

def decimalDigits (hundredths : ℕ) : List Char := Digits.fixed 10 2 (hundredths % 100)

theorem digit_of_whole (hundredths : ℕ) : ∀ c ∈ wholeDigits hundredths, c.isDigit = true :=
  fun _ hc => Digits.isDigit_toDigits hc

theorem digit_of_decimal (hundredths : ℕ) : ∀ c ∈ decimalDigits hundredths, c.isDigit = true :=
  fun _ hc => Digits.isDigit_fixed hc

theorem read_hundredths (hundredths : ℕ) :
    Nat.ofDigitChars 10 (wholeDigits hundredths ++ decimalDigits hundredths) 0 = hundredths := by
  have hdecimals : Nat.ofDigitChars 10 (Digits.fixed 10 2 (hundredths % 100)) 0 = hundredths % 100 :=
    Digits.ofDigitChars_fixed (Nat.mod_lt _ (by norm_num))
  rw [Nat.ofDigitChars_append, Nat.ofDigitChars_eq_ofDigitChars_zero, wholeDigits, decimalDigits,
    Nat.ofDigitChars_ten_toDigits, hdecimals, Digits.length_fixed]
  exact Nat.div_add_mod hundredths 100

namespace NumberStyle

/-- The number with single blanks for white space. -/
def squeezedNumber (style : NumberStyle) (hundredths : ℕ) : List Char :=
  grouped style.cut (if isSpace style.separator then ' ' else style.separator) (wholeDigits hundredths) ++
    style.mark :: decimalDigits hundredths

theorem mark_eq (style : NumberStyle) : style.mark = ',' ∨ style.mark = '.' := by
  cases style <;> simp [mark]

theorem squeezes_number (style : NumberStyle) (hundredths : ℕ) :
    Squeezes (style.number hundredths) (style.squeezedNumber hundredths) := by
  refine (squeezes_grouped Nat.toDigits_ne_nil (digit_of_whole _)).append (.word (List.cons_ne_nil _ _) ?_)
  intro c hc
  rcases List.mem_cons.1 hc with rfl | hc
  · rcases style.mark_eq with h | h <;> rw [h] <;> rfl
  · exact isSpace_of_isDigit (digit_of_decimal _ c hc)

theorem isAmountChar_squeezedNumber {style : NumberStyle} {hundredths : ℕ} :
    ∀ c ∈ style.squeezedNumber hundredths, c.isDigit = true ∨ c = ' ' ∨ c = ',' ∨ c = '.' := by
  intro c hc
  rcases List.mem_append.1 hc with hc | hc
  · rcases mem_grouped hc with hc | rfl
    · exact Or.inl (digit_of_whole _ c hc)
    · cases style with
      | plain => exact Or.inr (Or.inr (Or.inl rfl))
      | westernComma => exact Or.inr (Or.inr (Or.inl rfl))
      | indianComma => exact Or.inr (Or.inr (Or.inl rfl))
      | dot => exact Or.inr (Or.inr (Or.inr rfl))
      | blankPoint noBreak => cases noBreak <;> exact Or.inr (Or.inl rfl)
      | blankComma noBreak => cases noBreak <;> exact Or.inr (Or.inl rfl)
  · rcases List.mem_cons.1 hc with rfl | hc
    · exact Or.inr (Or.inr style.mark_eq)
    · exact Or.inl (digit_of_decimal _ c hc)

theorem head_squeezedNumber (style : NumberStyle) (hundredths : ℕ) :
    ∃ c rest, style.squeezedNumber hundredths = c :: rest ∧ c.isDigit = true := by
  obtain ⟨c, ds, hds⟩ := List.exists_cons_of_ne_nil (show wholeDigits hundredths ≠ [] from Nat.toDigits_ne_nil)
  have hhead : (grouped style.cut (if isSpace style.separator then ' ' else style.separator)
      (wholeDigits hundredths)).head? = some c := by rw [head?_grouped, hds, List.head?_cons]
  obtain ⟨rest, hrest⟩ := List.head?_eq_some_iff.1 hhead
  exact ⟨c, _, by rw [squeezedNumber, hrest, List.cons_append], digit_of_whole _ c (by rw [hds]; exact List.mem_cons_self ..)⟩

/-- The separators of every style are told apart. -/
theorem resolveSeparators_number (style : NumberStyle) (hundredths : ℕ) :
    resolveSeparators ((style.squeezedNumber hundredths).filter (· ≠ ' ')) =
      some (wholeDigits hundredths ++ '.' :: decimalDigits hundredths) := by
  have hlength : (decimalDigits hundredths).length = 2 := Digits.length_fixed _ _ _
  have hnoblank : ∀ {c}, c.isDigit = true ∨ c = ',' ∨ c = '.' → decide (c ≠ ' ') = true := by
    rintro c (hc | rfl | rfl)
    · exact decide_eq_true fun h => absurd hc (by rw [h]; decide)
    · rfl
    · rfl
  have hkeep : ∀ {cut separator mark}, separator = ',' ∨ separator = '.' → mark = ',' ∨ mark = '.' →
      (grouped cut separator (wholeDigits hundredths) ++ mark :: decimalDigits hundredths).filter (· ≠ ' ') =
        grouped cut separator (wholeDigits hundredths) ++ mark :: decimalDigits hundredths := by
    intro cut separator mark hseparator hmark
    refine List.filter_eq_self.2 fun c hc => hnoblank ?_
    rcases List.mem_append.1 hc with hc | hc
    · rcases mem_grouped hc with hc | rfl
      · exact Or.inl (digit_of_whole _ c hc)
      · exact Or.inr hseparator
    · rcases List.mem_cons.1 hc with rfl | hc
      · exact Or.inr hmark
      · exact Or.inl (digit_of_decimal _ c hc)
  have hblank : ∀ {cut mark}, mark = ',' ∨ mark = '.' →
      (grouped cut ' ' (wholeDigits hundredths) ++ mark :: decimalDigits hundredths).filter (· ≠ ' ') =
        wholeDigits hundredths ++ mark :: decimalDigits hundredths := by
    intro cut mark hmark
    rw [List.filter_append, filter_grouped (fun c hc => hnoblank (Or.inl (digit_of_whole _ c hc))) (by decide),
      List.filter_eq_self.2]
    intro c hc
    rcases List.mem_cons.1 hc with rfl | hc
    · exact hnoblank (Or.inr hmark)
    · exact hnoblank (Or.inl (digit_of_decimal _ c hc))
  have hcommas : ∀ cut, resolveSeparators ((grouped cut ',' (wholeDigits hundredths) ++
      '.' :: decimalDigits hundredths).filter (· ≠ ' ')) = some (wholeDigits hundredths ++ '.' :: decimalDigits hundredths) := by
    intro cut
    rw [hkeep (Or.inl rfl) (Or.inr rfl), resolveSeparators_commaGroups (digit_of_whole _) (digit_of_decimal _)]
  have hpoint : resolveSeparators ((grouped western ' ' (wholeDigits hundredths) ++
      '.' :: decimalDigits hundredths).filter (· ≠ ' ')) = some (wholeDigits hundredths ++ '.' :: decimalDigits hundredths) := by
    rw [hblank (Or.inr rfl), resolveSeparators_point (digit_of_whole _) (digit_of_decimal _)]
  have hcomma : resolveSeparators ((grouped western ' ' (wholeDigits hundredths) ++
      ',' :: decimalDigits hundredths).filter (· ≠ ' ')) = some (wholeDigits hundredths ++ '.' :: decimalDigits hundredths) := by
    rw [hblank (Or.inl rfl), resolveSeparators_comma (digit_of_whole _) (digit_of_decimal _) hlength]
  cases style with
  | plain => exact hcommas _
  | westernComma => exact hcommas _
  | indianComma => exact hcommas _
  | dot =>
    have hdot := @resolveSeparators_pointGroups _ _ western (digit_of_whole hundredths) (digit_of_decimal hundredths) hlength
    rw [← hkeep (Or.inr rfl) (Or.inl rfl)] at hdot
    exact hdot
  | blankPoint noBreak => cases noBreak <;> exact hpoint
  | blankComma noBreak => cases noBreak <;> exact hcomma

end NumberStyle

/-- A number with its sign, single blanks for white space. -/
def signedNumber (sign : SignStyle) (style : NumberStyle) (hundredths : ℕ) : List Char :=
  sign.chars ++ style.squeezedNumber hundredths

section
variable {sign : SignStyle} {style : NumberStyle} {hundredths : ℕ}

theorem squeezes_signed : Squeezes (sign.chars ++ style.number hundredths) (signedNumber sign style hundredths) := by
  have hnumber := style.squeezes_number hundredths
  cases sign with
  | none => exact hnumber
  | plus => exact .char rfl hnumber
  | minus => exact .char rfl hnumber
  | parentheses => exact hnumber

theorem isAmountChar_signed : ∀ c ∈ signedNumber sign style hundredths, isAmountChar c = true := by
  intro c hc
  rcases List.mem_append.1 hc with hc | hc
  · cases sign with
    | none => cases hc
    | plus => rw [List.mem_singleton.1 hc]; rfl
    | minus => rw [List.mem_singleton.1 hc]; rfl
    | parentheses => cases hc
  · rcases NumberStyle.isAmountChar_squeezedNumber c hc with h | rfl | rfl | rfl
    · rw [isAmountChar, h, Bool.true_or]
    · rfl
    · rfl
    · rfl

theorem amountShape_signed : amountShape (signedNumber sign style hundredths) = true := by
  obtain ⟨c, rest, hnumber, hc⟩ := style.head_squeezedNumber hundredths
  have hrest : rest.all (fun c => c.isDigit || c == ' ' || c == ',' || c == '.') = true := by
    rw [List.all_eq_true]
    intro d hd
    have hmem : d ∈ style.squeezedNumber hundredths := by
      rw [hnumber]
      exact List.mem_cons_of_mem _ hd
    rcases NumberStyle.isAmountChar_squeezedNumber d hmem with h | rfl | rfl | rfl
    · simp [h]
    · rfl
    · rfl
    · rfl
  have hsign := Decimal.ne_sign_of_isDigit hc
  have hbare : amountShape (c :: rest) = true := by
    simp [amountShape, hsign.1, hsign.2, hc, hrest]
  rw [signedNumber, hnumber]
  cases sign with
  | none => exact hbare
  | plus => simp [SignStyle.chars, amountShape, hc, hrest]
  | minus => simp [SignStyle.chars, amountShape, hc, hrest]
  | parentheses => exact hbare

theorem dropSign_signed :
    (signedNumber sign style hundredths).dropWhile (fun c => c == '+' || c == '-') = style.squeezedNumber hundredths := by
  obtain ⟨c, rest, hnumber, hc⟩ := style.head_squeezedNumber hundredths
  have hsign := Decimal.ne_sign_of_isDigit hc
  have hstop : (c :: rest).dropWhile (fun c => c == '+' || c == '-') = c :: rest :=
    List.dropWhile_cons_of_neg (by simp [hsign.1, hsign.2])
  rw [signedNumber, hnumber]
  cases sign with
  | none => exact hstop
  | plus => rw [SignStyle.chars, List.singleton_append, List.dropWhile_cons_of_pos rfl, hstop]
  | minus => rw [SignStyle.chars, List.singleton_append, List.dropWhile_cons_of_pos rfl, hstop]
  | parentheses => exact hstop

theorem head?_signed : (signedNumber sign style hundredths).head? = some '-' ↔ sign = .minus := by
  obtain ⟨c, rest, hnumber, hc⟩ := style.head_squeezedNumber hundredths
  have hsign := Decimal.ne_sign_of_isDigit hc
  rw [signedNumber, hnumber]
  cases sign with
  | none => simp [SignStyle.chars, hsign.1]
  | plus => simp [SignStyle.chars]
  | minus => simp [SignStyle.chars]
  | parentheses => simp [SignStyle.chars, hsign.1]

/-- A number with its sign is read; the minus may stand for parentheses. -/
theorem readAmount_signed (sign : SignStyle) (style : NumberStyle) (negativeParentheses : Bool)
    (h : Decimal.Fits 28 (hundredths / 100)) :
    ∃ d, readAmount negativeParentheses (signedNumber sign style hundredths) = some d ∧
      d.toRat = if negativeParentheses = true ∨ sign = .minus then -(hundredths / 100 : ℚ) else hundredths / 100 := by
  have hne : wholeDigits hundredths ≠ [] := Nat.toDigits_ne_nil
  have hdecimals : decimalDigits hundredths ≠ [] := by simp [decimalDigits, Digits.fixed]
  have hread := Decimal.readUnsigned_point false hne (digit_of_whole hundredths)
    (digit_of_decimal hundredths)
  have hlength : (decimalDigits hundredths).length = 2 := Digits.length_fixed _ _ _
  rw [read_hundredths, hlength] at hread
  have hvalue : (⟨false, hundredths, -(2 : ℕ)⟩ : Decimal).toRat = hundredths / 100 := by
    simp only [Decimal.toRat, Decimal.int, Bool.false_eq_true, if_false, zpow_neg, zpow_natCast]
    push_cast
    ring
  have hplain := plainNumber_point hne (digit_of_whole hundredths) hdecimals (digit_of_decimal hundredths)
  have hamount : readAmount negativeParentheses (signedNumber sign style hundredths) = some
      (if (negativeParentheses || decide ((signedNumber sign style hundredths).head? = some '-')) = true then
        (⟨false, hundredths, -(2 : ℕ)⟩ : Decimal).minus 28 else ⟨false, hundredths, -(2 : ℕ)⟩) := by
    rw [readAmount, if_pos amountShape_signed, dropSign_signed, style.resolveSeparators_number]
    rw [Option.bind_some, if_pos hplain, hread, Option.map_some]
  refine ⟨_, hamount, ?_⟩
  by_cases hneg : negativeParentheses = true ∨ sign = .minus
  · have hflag : (negativeParentheses || decide ((signedNumber sign style hundredths).head? = some '-')) = true := by
      rw [Bool.or_eq_true, decide_eq_true_iff, head?_signed]
      exact hneg
    rw [if_pos hflag, if_pos hneg, Decimal.toRat_minus (by decide) (hvalue ▸ h), hvalue]
  · have hflag : ¬(negativeParentheses || decide ((signedNumber sign style hundredths).head? = some '-')) = true := by
      rw [Bool.or_eq_true, decide_eq_true_iff, head?_signed]
      exact hneg
    rw [if_neg hflag, if_neg hneg, hvalue]

end

/-- The characters that the name of a currency may start with. -/
def markStarts : List Char :=
  currencyMarks.flatMap fun m => (m.toList.take 1).flatMap fun p => [p, p.toLower, 'ſ', 'İ', 'ı']

theorem readMark_eq_none {c : Char} {cs : List Char} (hc : c ∉ markStarts) : readMark (c :: cs) = none := by
  rw [readMark, List.findSome?_eq_none_iff]
  intro m hm
  have hstart : ∀ m ∈ currencyMarks, m.toList ≠ [] := by decide
  obtain ⟨p, ps, hp⟩ := List.exists_cons_of_ne_nil (hstart m hm)
  rw [hp, readLiteral, if_neg]
  intro heq
  refine hc (List.mem_flatMap.2 ⟨m, hm, List.mem_flatMap.2 ⟨p, by simp [hp], ?_⟩⟩)
  simp only [eqIgnoringCase, Bool.or_eq_true, Bool.and_eq_true, beq_iff_eq] at heq
  rcases heq with ((h | h) | ⟨-, h⟩) | ⟨-, h | h⟩ <;> simp [h]

theorem readMark_code {m : String} (rest : List Char) (h : m ∈ currencyCodes) : readMark (m.toList ++ rest) = some rest := by
  simp only [currencyCodes, List.mem_cons, List.not_mem_nil, or_false] at h
  rcases h with rfl | rfl | rfl | rfl | rfl | rfl | rfl | rfl | rfl | rfl <;> rfl

theorem amountChar_not_start {c : Char} (h : isAmountChar c = true) : c ∉ markStarts := by
  have hall : markStarts.all (fun c => !isAmountChar c) = true := by decide
  intro hc
  simpa [h] using List.all_eq_true.1 hall c hc

/-- What is said of a text that has no currency in it but may start with a symbol. -/
structure Unnamed (body : List Char) : Prop where
  starts : ∀ c ∈ body, isSpace c = false → c ∉ markStarts
  last : body = [] ∨ ∃ c ∈ body.getLast?, isSpace c = false

theorem dropWhile_isSpace_append {body : List Char} (tail : List Char) (h : ∃ c ∈ body, isSpace c = false) :
    ∃ d rest, (body ++ tail).dropWhile isSpace = d :: rest ∧ d ∈ body ∧ isSpace d = false := by
  induction body with
  | nil => simp at h
  | cons c body ih =>
    cases hc : isSpace c with
    | false => exact ⟨c, _, List.dropWhile_cons_of_neg (by simp [hc]), List.mem_cons_self .., hc⟩
    | true =>
      obtain ⟨e, he, hspace⟩ := h
      have hmem : e ∈ body := by
        rcases List.mem_cons.1 he with rfl | he
        · rw [hc] at hspace
          cases hspace
        · exact he
      obtain ⟨d, rest, heq, hd, hdspace⟩ := ih ⟨e, hmem, hspace⟩
      refine ⟨d, rest, ?_, List.mem_cons_of_mem _ hd, hdspace⟩
      rw [List.cons_append, List.dropWhile_cons_of_pos hc, heq]

theorem dropTrailingMark_append {body tail : List Char} (h : Unnamed body) :
    dropTrailingMark (body ++ tail) = body ++ dropTrailingMark tail := by
  induction body with
  | nil => rfl
  | cons c body ih =>
    have hlast : ∃ e ∈ (c :: body).getLast?, isSpace e = false := h.last.resolve_left (List.cons_ne_nil c body)
    obtain ⟨e, he, hspace⟩ := hlast
    obtain ⟨d, rest, heq, hd, hdspace⟩ :=
      dropWhile_isSpace_append tail ⟨e, List.mem_of_getLast? he, hspace⟩
    have hrest : Unnamed body := by
      refine ⟨fun e he => h.starts e (List.mem_cons_of_mem _ he), ?_⟩
      cases body with
      | nil => exact Or.inl rfl
      | cons c' body => exact Or.inr ⟨e, by simpa using he, hspace⟩
    rw [List.cons_append] at heq
    rw [List.cons_append, dropTrailingMark, heq, readMark_eq_none (h.starts d hd hdspace), if_neg (by simp), ih hrest,
      List.cons_append]

/-- Not empty, and without white space. -/
def isMarkWord (m : String) : Bool := !m.toList.isEmpty && m.toList.all fun c => !isSpace c

theorem word_of_isMarkWord {m : String} (h : isMarkWord m = true) : m.toList ≠ [] ∧ ∀ c ∈ m.toList, isSpace c = false := by
  simpa [isMarkWord] using h

theorem word_of_code {m : String} (h : m ∈ currencyCodes) : m.toList ≠ [] ∧ ∀ c ∈ m.toList, isSpace c = false := by
  have hall : currencyCodes.all isMarkWord = true := by decide
  exact word_of_isMarkWord (List.all_eq_true.1 hall m h)

theorem dropTrailingMark_code {m : String} (blanks : List Char) (h : m ∈ currencyCodes) :
    dropTrailingMark (squeezed blanks ++ m.toList) = [] := by
  obtain ⟨hne, hword⟩ := word_of_code h
  obtain ⟨c, cs, hm⟩ := List.exists_cons_of_ne_nil hne
  have hc : isSpace c = false := hword c (by rw [hm]; exact List.mem_cons_self ..)
  have hstop : (c :: cs).dropWhile isSpace = c :: cs := List.dropWhile_cons_of_neg (by simp [hc])
  have hread := readMark_code [] h
  rw [List.append_nil, hm] at hread
  rw [hm]
  unfold squeezed
  split_ifs
  · rw [List.nil_append, dropTrailingMark, hstop, if_pos hread]
  · rw [List.singleton_append, dropTrailingMark, List.dropWhile_cons_of_pos rfl, hstop, if_pos hread]

namespace MoneyStyle

variable {t : MoneyStyle} {hundredths : ℕ}

def signed (t : MoneyStyle) (hundredths : ℕ) : List Char := signedNumber t.sign t.style hundredths

/-- The text between the parentheses with single blanks for white space. -/
def squeezedInner (t : MoneyStyle) (hundredths : ℕ) : List Char :=
  (t.before.elim [] fun m => m.toList ++ squeezed t.beforeGap) ++
    (t.signed hundredths ++ t.after.elim [] fun m => squeezed t.afterGap ++ m.toList)

theorem word_before {m : String} (h : m ∈ t.before) : m.toList ≠ [] ∧ ∀ c ∈ m.toList, isSpace c = false := by
  rcases t.before_mem m h with h | h
  · exact word_of_code h
  · have hall : amountSymbols.all isMarkWord = true := by decide
    exact word_of_isMarkWord (List.all_eq_true.1 hall m h)

theorem squeezes_inner (t : MoneyStyle) (hundredths : ℕ) : Squeezes (t.inner hundredths) (t.squeezedInner hundredths) := by
  have hsigned : Squeezes (t.sign.chars ++ t.style.number hundredths) (t.signed hundredths) := squeezes_signed
  have hafter : Squeezes ((t.sign.chars ++ t.style.number hundredths) ++ t.after.elim [] fun m => t.afterGap ++ m.toList)
      (t.signed hundredths ++ t.after.elim [] fun m => squeezed t.afterGap ++ m.toList) := by
    cases hm : t.after with
    | none => simpa using hsigned
    | some m =>
      obtain ⟨hne, hword⟩ := word_of_code (t.after_mem m hm)
      exact hsigned.append_gap t.blanks.2 (.word hne hword)
  rw [inner, squeezedInner]
  cases hm : t.before with
  | none => exact hafter
  | some m =>
    obtain ⟨hne, hword⟩ := word_before hm
    have hbefore := (Squeezes.word hne hword).append_gap t.blanks.1 hafter
    simp only [Option.elim_some, List.append_assoc] at hbefore ⊢
    exact hbefore

theorem unnamed_signed : Unnamed (t.signed hundredths) := by
  refine ⟨fun c hc _ => amountChar_not_start (isAmountChar_signed c hc), Or.inr ?_⟩
  exact squeezes_signed.getLast

theorem dropTrailingMark_after {body : List Char} (h : Unnamed body) :
    dropTrailingMark (body ++ t.after.elim [] fun m => squeezed t.afterGap ++ m.toList) = body := by
  rw [dropTrailingMark_append h]
  cases hm : t.after with
  | none => exact List.append_nil body
  | some m =>
    rw [Option.elim_some, dropTrailingMark_code t.afterGap (t.after_mem m hm), List.append_nil]

theorem head_signed (t : MoneyStyle) (hundredths : ℕ) : ∃ c rest, t.signed hundredths = c :: rest ∧ isSpace c = false ∧
    isAmountChar c = true := by
  obtain ⟨c, -, rest, -, hrest, hc⟩ := (@squeezes_signed t.sign t.style hundredths).head
  exact ⟨c, rest, hrest, hc, isAmountChar_signed c (by rw [hrest]; exact List.mem_cons_self ..)⟩

theorem amountChar_not_symbol {c : Char} (h : isAmountChar c = true) : c ∉ ['₹', '€', '£', '$'] := by
  have hall : ['₹', '€', '£', '$'].all (fun c => !isAmountChar c) = true := by decide
  intro hc
  simpa [h] using List.all_eq_true.1 hall c hc

/-- Nothing is left of white space, a symbol and more white space before the number. -/
theorem strip_signed (blanks : List Char) : stripBy isSpace
    ((squeezed blanks ++ t.signed hundredths).dropWhile (· ∈ ['₹', '€', '£', '$'])) = t.signed hundredths := by
  obtain ⟨c, rest, hsigned, hspace, hc⟩ := t.head_signed hundredths
  have hstrip : stripBy isSpace (t.signed hundredths) = t.signed hundredths := squeezes_signed.stripBy_eq
  unfold squeezed
  split_ifs
  · rw [List.nil_append, hsigned, List.dropWhile_cons_of_neg (by simpa using amountChar_not_symbol hc), ← hsigned, hstrip]
  · rw [List.singleton_append, List.dropWhile_cons_of_neg (by decide)]
    have hdrop : (' ' :: t.signed hundredths).dropWhile isSpace = (t.signed hundredths).dropWhile isSpace :=
      List.dropWhile_cons_of_pos rfl
    rw [stripBy, hdrop]
    exact hstrip

/-- The normaliser takes the currency off. -/
theorem unmarked_squeezedInner (t : MoneyStyle) (hundredths : ℕ) :
    unmarked (t.squeezedInner hundredths) = t.signed hundredths := by
  obtain ⟨c, rest, hsigned, hspace, hc⟩ := t.head_signed hundredths
  have hbare : ∀ tail, dropLeadingMark (t.signed hundredths ++ tail) = t.signed hundredths ++ tail := by
    intro tail
    rw [hsigned, List.cons_append, dropLeadingMark, readMark_eq_none (amountChar_not_start hc)]
  rw [unmarked, squeezedInner]
  cases hm : t.before with
  | none =>
    rw [Option.elim_none, List.nil_append, hbare, dropTrailingMark_after unnamed_signed]
    exact strip_signed []
  | some m =>
    rw [Option.elim_some]
    rcases t.before_mem m hm with hcode | hsymbol
    · have hgap : ∀ tail, (squeezed t.beforeGap ++ (t.signed hundredths ++ tail)).dropWhile isSpace =
          t.signed hundredths ++ tail := by
        intro tail
        have hstop : (t.signed hundredths ++ tail).dropWhile isSpace = t.signed hundredths ++ tail := by
          rw [hsigned, List.cons_append, List.dropWhile_cons_of_neg (by simp [hspace])]
        unfold squeezed
        split_ifs
        · exact hstop
        · rw [List.singleton_append, List.dropWhile_cons_of_pos rfl, hstop]
      rw [List.append_assoc, dropLeadingMark, readMark_code _ hcode]
      simp only [hgap, dropTrailingMark_after unnamed_signed]
      exact strip_signed []
    · obtain ⟨s, hs, hstart, hmem⟩ : ∃ s, m.toList = [s] ∧ s ∉ markStarts ∧ s ∈ ['₹', '€', '£', '$'] := by
        simp only [amountSymbols, List.mem_cons, List.not_mem_nil, or_false] at hsymbol
        rcases hsymbol with rfl | rfl | rfl | rfl
        · exact ⟨'₹', rfl, by decide, by decide⟩
        · exact ⟨'€', rfl, by decide, by decide⟩
        · exact ⟨'£', rfl, by decide, by decide⟩
        · exact ⟨'$', rfl, by decide, by decide⟩
      have hbody : Unnamed (s :: (squeezed t.beforeGap ++ t.signed hundredths)) := by
        refine ⟨List.forall_mem_cons.2 ⟨fun _ => hstart, fun d hd hdspace => ?_⟩, Or.inr ?_⟩
        · rcases List.mem_append.1 hd with hd | hd
          · have hblank : d = ' ' := by
              unfold squeezed at hd
              split_ifs at hd
              · cases hd
              · exact List.mem_singleton.1 hd
            rw [hblank] at hdspace
            cases hdspace
          · exact unnamed_signed.starts d hd hdspace
        · obtain ⟨e, he, hespace⟩ := (@squeezes_signed t.sign t.style hundredths).getLast
          refine ⟨e, ?_, hespace⟩
          have hne : t.signed hundredths ≠ [] := by rw [hsigned]; exact List.cons_ne_nil _ _
          rw [← List.cons_append, List.getLast?_append_of_ne_nil _ hne]
          exact he
      have hshape : (m.toList ++ squeezed t.beforeGap) ++
          (t.signed hundredths ++ t.after.elim [] fun m => squeezed t.afterGap ++ m.toList) =
          s :: (squeezed t.beforeGap ++ t.signed hundredths) ++
            t.after.elim [] fun m => squeezed t.afterGap ++ m.toList := by
        rw [hs]
        simp
      have hleading : ∀ tail, dropLeadingMark (s :: tail) = s :: tail := by
        intro tail
        rw [dropLeadingMark, readMark_eq_none hstart]
      rw [hshape, List.cons_append, hleading, ← List.cons_append, dropTrailingMark_after hbody,
        List.dropWhile_cons_of_pos (by simpa using hmem)]
      exact strip_signed t.beforeGap

/-- There is no parenthesis inside. -/
theorem head?_squeezedInner (t : MoneyStyle) (hundredths : ℕ) : (t.squeezedInner hundredths).head? ≠ some '(' := by
  obtain ⟨c, rest, hsigned, -, hc⟩ := t.head_signed hundredths
  rw [squeezedInner]
  cases hm : t.before with
  | none =>
    rw [Option.elim_none, List.nil_append, hsigned, List.cons_append, List.head?_cons]
    intro h
    obtain rfl := Option.some.inj h
    exact absurd hc (by decide)
  | some m =>
    have hall : ∀ m, m ∈ currencyCodes ∨ m ∈ amountSymbols → m.toList ≠ [] ∧ '(' ∉ m.toList := by
      have hlist : ∀ m ∈ currencyCodes ++ amountSymbols, m.toList ≠ [] ∧ '(' ∉ m.toList := by decide
      exact fun m h => hlist m (List.mem_append.2 h)
    obtain ⟨hne, hnot⟩ := hall m (t.before_mem m hm)
    obtain ⟨d, ds, hd⟩ := List.exists_cons_of_ne_nil hne
    rw [Option.elim_some, hd, List.cons_append, List.cons_append, List.head?_cons]
    intro h
    obtain rfl := Option.some.inj h
    exact hnot (by rw [hd]; exact List.mem_cons_self ..)

end MoneyStyle

theorem normalized_of_squeezes {cs js : List Char} (h : Squeezes cs js) :
    stripBy isSpace ((normalizeWhitespace (String.ofList cs)).toList.map fun c => if c = '\u00a0' then ' ' else c) = js := by
  rw [normalizeWhitespace, String.toList_ofList, String.toList_ofList, h.joinWords_eq]
  have hid : js.map (fun c => if c = '\u00a0' then ' ' else c) = js := by
    refine (List.map_congr_left fun c hc => if_neg ?_).trans (List.map_id js)
    rintro rfl
    exact absurd (h.blank_of_space _ hc rfl) (by decide)
  rw [hid, h.stripBy_eq]

/-- An amount with two decimals is read from each of its renderings. -/
theorem parseMoney_render (t : MoneyStyle) (hundredths : ℕ) (h : Decimal.Fits 28 (hundredths / 100)) :
    ∃ d, parseMoney (t.render hundredths) = some d ∧ d.toRat = t.amount hundredths := by
  have hinner := t.squeezes_inner hundredths
  rw [MoneyStyle.render, MoneyStyle.amount]
  by_cases hsign : t.sign = .parentheses
  · have houter : Squeezes ('(' :: (t.inner hundredths ++ [')'])) ('(' :: (t.squeezedInner hundredths ++ [')'])) :=
      .char rfl (hinner.append (.last rfl))
    obtain ⟨d, hd, hvalue⟩ := readAmount_signed t.sign t.style true h
    have hends : ('(' :: (t.squeezedInner hundredths ++ [')'])).head? = some '(' ∧
        ('(' :: (t.squeezedInner hundredths ++ [')'])).getLast? = some ')' :=
      ⟨rfl, by rw [← List.cons_append, List.getLast?_concat]⟩
    refine ⟨d, ?_, ?_⟩
    · rw [if_pos hsign, parseMoney_eq (normalized_of_squeezes houter), if_pos hends, List.tail_cons,
        List.dropLast_concat, hinner.stripBy_eq, t.unmarked_squeezedInner]
      exact hd
    · rw [hvalue, hsign]
      rfl
  · obtain ⟨d, hd, hvalue⟩ := readAmount_signed t.sign t.style false h
    refine ⟨d, ?_, ?_⟩
    · rw [if_neg hsign, parseMoney_eq (normalized_of_squeezes hinner),
        if_neg (fun h => t.head?_squeezedInner hundredths h.1), t.unmarked_squeezedInner]
      exact hd
    · rw [hvalue]
      cases hs : t.sign with
      | none => rfl
      | plus => rfl
      | minus => rfl
      | parentheses => exact absurd hs hsign

/-- Rupees with Indian groups in parentheses. -/
def bracketedRupees : MoneyStyle where
  style := .indianComma
  sign := .parentheses
  before := some "₹"
  beforeGap := ['\u00a0']
  after := none
  afterGap := []
  before_mem := by decide
  after_mem := by simp
  blanks := ⟨List.forall_mem_singleton.2 rfl, List.forall_mem_nil _⟩

theorem parseMoney_render_rupees : bracketedRupees.render 12345678 = "(₹\u00a01,23,456.78)" ∧
    ∃ d, parseMoney (bracketedRupees.render 12345678) = some d ∧ d.toRat = -(12345678 / 100) := by
  refine ⟨by decide, ?_⟩
  have hfits : Decimal.Fits 28 (((12345678 : ℕ) : ℚ) / 100) := ⟨12345678, -2, by norm_num, by norm_num⟩
  obtain ⟨d, hd, hvalue⟩ := parseMoney_render bracketedRupees 12345678 hfits
  refine ⟨d, hd, hvalue.trans ?_⟩
  have hnegative : bracketedRupees.sign.negative = true := rfl
  rw [MoneyStyle.amount, if_pos hnegative]
  norm_num

end InvoiceOps
