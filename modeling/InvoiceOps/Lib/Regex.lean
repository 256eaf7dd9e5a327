import InvoiceOps.Lib.Text

/-! Regular expressions with backtracking. A place in a text is the character before it and the text after it,
and an expression lists the places it may stop at in the order they are tried, so that the first of them is
where it stops. -/

namespace Regex

abbrev Place := Option Char × List Char

inductive Pattern
  | eps
  | one (p : Char → Bool)
  | many (p : Char → Bool)
  | boundary
  | seq (a b : Pattern)
  | alt (a b : Pattern)

namespace Pattern

def opt (a : Pattern) : Pattern := alt a eps

def plus (p : Char → Bool) : Pattern := seq (one p) (many p)

/-- The characters of a word, each read by `eq`. -/
def word (eq : Char → Char → Bool) (w : String) : Pattern := w.toList.foldr (fun c rest => seq (one (eq c)) rest) eps

def oneOf : List Pattern → Pattern
  | [] => one fun _ => false
  | [a] => a
  | a :: b :: rest => alt a (oneOf (b :: rest))

end Pattern

/-- The places after as many characters as possible, then after fewer. -/
def manyEnds (p : Char → Bool) (before : Option Char) : List Char → List Place
  | [] => [(before, [])]
  | c :: cs => (if p c then manyEnds p (some c) cs else []) ++ [(before, c :: cs)]

/-- `\b`: of the two characters around a place one belongs to a word. -/
def atBoundary (isWord : Char → Bool) (s : Place) : Bool := s.1.any isWord != s.2.head?.any isWord

def ends (isWord : Char → Bool) : Pattern → Place → List Place
  | .eps, s => [s]
  | .one p, s =>
    match s.2 with
    | [] => []
    | c :: cs => if p c then [(some c, cs)] else []
  | .many p, s => manyEnds p s.1 s.2
  | .boundary, s => if atBoundary isWord s then [s] else []
  | .seq a b, s => (ends isWord a s).flatMap (ends isWord b)
  | .alt a b, s => ends isWord a s ++ ends isWord b s

/-- `re.match`: where the expression stops when it starts at a place. -/
def matchAt (isWord : Char → Bool) (p : Pattern) (s : Place) : Option Place := (ends isWord p s).head?

/-- The places of a text from a given one on. -/
def places : Option Char → List Char → List Place
  | before, [] => [(before, [])]
  | before, c :: cs => (before, c :: cs) :: places (some c) cs

/-- `re.search` -/
def found (isWord : Char → Bool) (p : Pattern) (cs : List Char) : Bool :=
  (places none cs).any fun s => (matchAt isWord p s).isSome

/-- Where the first match of `re.search` starts and where it ends. -/
def search (isWord : Char → Bool) (p : Pattern) (cs : List Char) : Option (Place × Place) :=
  (places none cs).findSome? fun s => (matchAt isWord p s).map fun e => (s, e)

/-- The text of a match. -/
def matched (m : Place × Place) : List Char := m.1.2.take (m.1.2.length - m.2.2.length)

/-- What `re.sub` leaves when it removes every match: `skip` characters belong to the current one. -/
def removeFrom (isWord : Char → Bool) (p : Pattern) : ℕ → Option Char → List Char → List Char
  | _, _, [] => []
  | skip + 1, _, c :: cs => removeFrom isWord p skip (some c) cs
  | 0, before, c :: cs =>
    match matchAt isWord p (before, c :: cs) with
    | none => c :: removeFrom isWord p 0 (some c) cs
    | some s =>
      if s.2.length ≤ cs.length then removeFrom isWord p (cs.length - s.2.length) (some c) cs
      else c :: removeFrom isWord p 0 (some c) cs

def removeAll (isWord : Char → Bool) (p : Pattern) (cs : List Char) : List Char := removeFrom isWord p 0 none cs

/-- The texts of the matches of `re.finditer` that are not empty: `skip` characters belong to the current one. -/
def findAllFrom (m : Place → Option Place) : ℕ → Option Char → List Char → List (List Char)
  | _, _, [] => []
  | skip + 1, _, c :: cs => findAllFrom m skip (some c) cs
  | 0, before, c :: cs =>
    match m (before, c :: cs) with
    | none => findAllFrom m 0 (some c) cs
    | some s =>
      if s.2.length ≤ cs.length then
        matched ((before, c :: cs), s) :: findAllFrom m (cs.length - s.2.length) (some c) cs
      else findAllFrom m 0 (some c) cs

def findAll (m : Place → Option Place) (cs : List Char) : List (List Char) := findAllFrom m 0 none cs

theorem matched_isPrefix (m : Place × Place) : matched m <+: m.1.2 := List.take_prefix _ _

theorem findAllFrom_infix {m : Place → Option Place} {skip : ℕ} {before : Option Char} {cs f : List Char}
    (h : f ∈ findAllFrom m skip before cs) : f <:+: cs := by
  induction cs generalizing skip before with
  | nil => cases skip <;> cases h
  | cons c cs ih =>
    have hrest {skip' : ℕ} {before' : Option Char} (hf : f ∈ findAllFrom m skip' before' cs) : f <:+: c :: cs :=
      (ih hf).trans (List.suffix_cons c cs).isInfix
    cases skip with
    | succ skip => exact hrest h
    | zero =>
      rw [findAllFrom] at h
      split at h
      · exact hrest h
      · split_ifs at h
        · rcases List.mem_cons.1 h with rfl | h
          · exact (matched_isPrefix _).isInfix
          · exact hrest h
        · exact hrest h

theorem findAll_infix {m : Place → Option Place} {cs f : List Char} (h : f ∈ findAll m cs) : f <:+: cs :=
  findAllFrom_infix h

theorem manyEnds_length {p : Char → Bool} {before : Option Char} {cs : List Char} {s : Place}
    (h : s ∈ manyEnds p before cs) : s.2 <:+ cs := by
  induction cs generalizing before with
  | nil =>
    obtain rfl := List.mem_singleton.1 h
    exact List.suffix_refl _
  | cons c cs ih =>
    rcases List.mem_append.1 h with h | h
    · split_ifs at h
      · exact (ih h).trans (List.suffix_cons c cs)
      · simp at h
    · obtain rfl := List.mem_singleton.1 h
      exact List.suffix_refl _

/-- An expression stops inside the text it is read in. -/
theorem ends_suffix {isWord : Char → Bool} {p : Pattern} {s t : Place} (h : t ∈ ends isWord p s) : t.2 <:+ s.2 := by
  induction p generalizing s t with
  | eps =>
    obtain rfl := List.mem_singleton.1 h
    exact List.suffix_refl _
  | one p =>
    obtain ⟨before, cs⟩ := s
    cases cs with
    | nil => simp [ends] at h
    | cons c cs =>
      simp only [ends] at h
      split_ifs at h
      · obtain rfl := List.mem_singleton.1 h
        exact List.suffix_cons c cs
      · simp at h
  | many p => exact manyEnds_length h
  | boundary =>
    simp only [ends] at h
    split_ifs at h
    · obtain rfl := List.mem_singleton.1 h
      exact List.suffix_refl _
    · simp at h
  | seq a b iha ihb =>
    obtain ⟨u, hu, ht⟩ := List.mem_flatMap.1 h
    exact (ihb ht).trans (iha hu)
  | alt a b iha ihb =>
    rcases List.mem_append.1 h with h | h
    · exact iha h
    · exact ihb h

theorem mem_places {before : Option Char} {cs : List Char} {s : Place} (h : s ∈ places before cs) : s.2 <:+ cs := by
  induction cs generalizing before with
  | nil =>
    obtain rfl := List.mem_singleton.1 h
    exact List.suffix_refl _
  | cons c cs ih =>
    rcases List.mem_cons.1 h with rfl | h
    · exact List.suffix_refl _
    · exact (ih h).trans (List.suffix_cons c cs)

theorem matchAt_suffix {isWord : Char → Bool} {p : Pattern} {s t : Place} (h : matchAt isWord p s = some t) : t.2 <:+ s.2 :=
  ends_suffix (List.mem_of_mem_head? h)

theorem search_suffix {isWord : Char → Bool} {p : Pattern} {cs : List Char} {m : Place × Place}
    (h : search isWord p cs = some m) : m.1.2 <:+ cs ∧ m.2.2 <:+ m.1.2 := by
  obtain ⟨s, hs, hm⟩ := List.exists_of_findSome?_eq_some h
  obtain ⟨t, ht, rfl⟩ := Option.map_eq_some_iff.1 hm
  exact ⟨mem_places hs, matchAt_suffix ht⟩

end Regex
