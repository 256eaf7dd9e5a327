import Mathlib.Data.List.Basic
import Mathlib.Tactic.Common

/-! Texts and their lines, with two notions of a line break: the one of Python's `splitlines`, and the one of the
pattern `\r?\n`. A stream is cut into blocks at an empty line of the second kind, and this does not depend on the
chunks it arrives in. -/

namespace Lines

/-- The characters that end a line for `splitlines`. -/
def isBreak (c : Char) : Bool :=
  let n := c.toNat
  (10 ≤ n && n ≤ 13) || (28 ≤ n && n ≤ 30) || n == 0x85 || n == 0x2028 || n == 0x2029

/-- `str.splitlines`: a break at the end of the text starts no further line. -/
def splitlines : List Char → List (List Char)
  | [] => []
  | '\r' :: '\n' :: cs => [] :: splitlines cs
  | c :: cs =>
    if isBreak c then [] :: splitlines cs
    else
      match splitlines cs with
      | [] => [[c]]
      | line :: lines => (c :: line) :: lines

/-- What follows a match of `\r?\n` at the start of the text. -/
def matchBreak : List Char → Option (List Char)
  | '\r' :: '\n' :: cs => some cs
  | '\n' :: cs => some cs
  | _ => none

/-- `split(/\r?\n/)` -/
def splitBreaks : List Char → List (List Char)
  | [] => [[]]
  | '\r' :: '\n' :: cs => [] :: splitBreaks cs
  | '\n' :: cs => [] :: splitBreaks cs
  | c :: cs =>
    match splitBreaks cs with
    | [] => [[c]]
    | line :: lines => (c :: line) :: lines

/-- What follows a match of `\r?\n\r?\n` at the start of the text. -/
def matchBoundary (cs : List Char) : Option (List Char) := (matchBreak cs).bind matchBreak

/-- The text before the first match of `\r?\n\r?\n`, and the text after it. -/
def searchBoundary : List Char → Option (List Char × List Char)
  | [] => none
  | c :: cs =>
    match matchBoundary (c :: cs) with
    | some rest => some ([], rest)
    | none => (searchBoundary cs).map fun found => (c :: found.1, found.2)

/-- No character of a line is part of a match. -/
def Plain (line : List Char) : Prop := ∀ c ∈ line, c ≠ '\n' ∧ c ≠ '\r'

theorem plain_of_all {line : List Char} (h : line.all (fun c => c != '\n' && c != '\r') = true) : Plain line := by
  intro c hc
  simpa using List.all_eq_true.1 h c hc

theorem mem_splitlines {cs line : List Char} (h : line ∈ splitlines cs) {c : Char} (hc : c ∈ line) :
    c ∈ cs ∧ isBreak c = false := by
  fun_induction splitlines cs generalizing line with
  | case1 => cases h
  | case2 cs ih =>
    rcases List.mem_cons.1 h with rfl | h
    · cases hc
    · exact ⟨by simp [(ih h hc).1], (ih h hc).2⟩
  | case3 a cs hne hbreak ih =>
    rcases List.mem_cons.1 h with rfl | h
    · cases hc
    · exact ⟨List.mem_cons_of_mem _ (ih h hc).1, (ih h hc).2⟩
  | case4 a cs hne hbreak hnil ih =>
    obtain rfl := List.mem_singleton.1 h
    obtain rfl := List.mem_singleton.1 hc
    exact ⟨by simp, by simpa using hbreak⟩
  | case5 a cs hne hbreak first lines hlines ih =>
    rw [hlines] at ih
    rcases List.mem_cons.1 h with rfl | h
    · rcases List.mem_cons.1 hc with rfl | hc
      · exact ⟨by simp, by simpa using hbreak⟩
      · exact ⟨List.mem_cons_of_mem _ (ih (by simp) hc).1, (ih (by simp) hc).2⟩
    · exact ⟨List.mem_cons_of_mem _ (ih (by simp [h]) hc).1, (ih (by simp [h]) hc).2⟩

theorem splitlines_eq_singleton {cs : List Char} (hne : cs ≠ []) (h : ∀ c ∈ cs, isBreak c = false) :
    splitlines cs = [cs] := by
  induction cs with
  | nil => exact absurd rfl hne
  | cons c cs ih =>
    have hc : isBreak c = false := h c (by simp)
    rw [splitlines]
    · rw [if_neg (by simp [hc])]
      cases cs with
      | nil => rfl
      | cons d cs => rw [ih (by simp) fun e he => h e (List.mem_cons_of_mem _ he)]
    · rintro cs' rfl -
      exact absurd hc (by decide)

theorem splitBreaks_plain {line : List Char} (h : Plain line) : splitBreaks line = [line] := by
  induction line with
  | nil => rfl
  | cons c line ih =>
    have hc := h c (by simp)
    have hline := ih fun e he => h e (List.mem_cons_of_mem _ he)
    rw [splitBreaks]
    · rw [hline]
    · rintro cs rfl -
      exact hc.2 rfl
    · rintro rfl
      exact hc.1 rfl

theorem splitBreaks_append {line : List Char} (h : Plain line) (cs : List Char) :
    splitBreaks (line ++ '\n' :: cs) = line :: splitBreaks cs := by
  induction line with
  | nil => simp [splitBreaks]
  | cons c line ih =>
    have hc := h c (by simp)
    have hline := ih fun e he => h e (List.mem_cons_of_mem _ he)
    rw [List.cons_append, splitBreaks]
    · rw [hline]
    · rintro cs rfl -
      exact hc.2 rfl
    · rintro rfl
      exact hc.1 rfl

theorem splitBreaks_intercalate {lines : List (List Char)} (hne : lines ≠ []) (h : ∀ line ∈ lines, Plain line) :
    splitBreaks (['\n'].intercalate lines) = lines := by
  induction lines with
  | nil => exact absurd rfl hne
  | cons line lines ih =>
    cases lines with
    | nil =>
      rw [List.intercalate_singleton]
      exact splitBreaks_plain (h line (by simp))
    | cons next lines =>
      rw [List.intercalate_cons_cons, List.append_assoc, List.singleton_append,
        splitBreaks_append (h line (by simp)), ih (by simp) fun l hl => h l (List.mem_cons_of_mem _ hl)]

theorem mem_intercalate {lines : List (List Char)} {c : Char} (h : c ∈ ['\n'].intercalate lines) :
    (∃ line ∈ lines, c ∈ line) ∨ c = '\n' := by
  induction lines with
  | nil => cases h
  | cons line lines ih =>
    cases lines with
    | nil =>
      rw [List.intercalate_singleton] at h
      exact .inl ⟨line, by simp, h⟩
    | cons next lines =>
      rw [List.intercalate_cons_cons, List.append_assoc, List.singleton_append] at h
      rcases List.mem_append.1 h with h | h
      · exact .inl ⟨line, by simp, h⟩
      · rcases List.mem_cons.1 h with rfl | h
        · exact .inr rfl
        · refine (ih h).imp_left fun hline => ?_
          obtain ⟨line', hline', hc⟩ := hline
          exact ⟨line', List.mem_cons_of_mem _ hline', hc⟩

theorem matchBreak_eq_some {cs rest : List Char} :
    matchBreak cs = some rest ↔ cs = '\n' :: rest ∨ cs = '\r' :: '\n' :: rest := by
  constructor
  · intro h
    unfold matchBreak at h
    split at h
    · exact .inr (by rw [Option.some.inj h])
    · exact .inl (by rw [Option.some.inj h])
    · cases h
  · rintro (rfl | rfl)
    · rfl
    · rfl

theorem length_matchBreak {cs rest : List Char} (h : matchBreak cs = some rest) : rest.length < cs.length := by
  rcases matchBreak_eq_some.1 h with rfl | rfl
  · simp
  · simp only [List.length_cons]
    omega

theorem matchBreak_append {cs rest : List Char} (h : matchBreak cs = some rest) (more : List Char) :
    matchBreak (cs ++ more) = some (rest ++ more) := by
  rcases matchBreak_eq_some.1 h with rfl | rfl
  · rfl
  · rfl

theorem matchBoundary_append {cs rest : List Char} (h : matchBoundary cs = some rest) (more : List Char) :
    matchBoundary (cs ++ more) = some (rest ++ more) := by
  obtain ⟨mid, hmid, hrest⟩ := Option.bind_eq_some_iff.1 h
  rw [matchBoundary, matchBreak_append hmid, Option.bind_some, matchBreak_append hrest]

/-- A break that needs more characters starts at the last ones. -/
theorem matchBreak_open {cs more rest : List Char} (h : matchBreak cs = none)
    (hmore : matchBreak (cs ++ more) = some rest) : cs = [] ∨ cs = ['\r'] := by
  cases cs with
  | nil => exact .inl rfl
  | cons c cs =>
    rcases matchBreak_eq_some.1 hmore with heq | heq
    · obtain ⟨rfl, -⟩ := List.cons.inj heq
      cases h
    · obtain ⟨rfl, htail⟩ := List.cons.inj heq
      cases cs with
      | nil => exact .inr rfl
      | cons d cs =>
        obtain ⟨rfl, -⟩ := List.cons.inj htail
        cases h

theorem matchBreak_cons {c : Char} (hc : c ≠ '\n' ∧ c ≠ '\r') (cs : List Char) : matchBreak (c :: cs) = none := by
  rw [Option.eq_none_iff_forall_ne_some]
  intro rest h
  rcases matchBreak_eq_some.1 h with heq | heq
  · exact absurd (List.cons.inj heq).1 hc.1
  · exact absurd (List.cons.inj heq).1 hc.2

theorem searchBoundary_short : searchBoundary [] = none ∧ searchBoundary ['\r'] = none ∧
    searchBoundary ['\n'] = none ∧ searchBoundary ['\n', '\r'] = none := by
  decide

/-- Where a boundary follows, none begins before it that needs more characters. -/
theorem not_matchBoundary_append {c : Char} {cs : List Char} {found : List Char × List Char}
    (h : matchBoundary (c :: cs) = none) (hfound : searchBoundary cs = some found) (more : List Char) :
    matchBoundary (c :: cs ++ more) = none := by
  obtain ⟨hnil, hr, hn, hnr⟩ := searchBoundary_short
  rw [Option.eq_none_iff_forall_ne_some]
  intro rest hmatch
  obtain ⟨mid, hmid, hrest⟩ := Option.bind_eq_some_iff.1 hmatch
  rcases matchBreak_eq_some.1 hmid with heq | heq
  · obtain ⟨rfl, rfl⟩ := List.cons.inj heq
    rcases matchBreak_open h hrest with rfl | rfl
    · exact absurd hfound (by rw [hnil]; simp)
    · exact absurd hfound (by rw [hr]; simp)
  · obtain ⟨rfl, htail⟩ := List.cons.inj heq
    cases cs with
    | nil => exact absurd hfound (by rw [hnil]; simp)
    | cons d cs =>
      obtain ⟨rfl, rfl⟩ := List.cons.inj htail
      rcases matchBreak_open h hrest with rfl | rfl
      · exact absurd hfound (by rw [hn]; simp)
      · exact absurd hfound (by rw [hnr]; simp)

/-- A boundary stays the first one when characters arrive. -/
theorem searchBoundary_append {cs block rest : List Char} (h : searchBoundary cs = some (block, rest))
    (more : List Char) : searchBoundary (cs ++ more) = some (block, rest ++ more) := by
  induction cs generalizing block with
  | nil => cases h
  | cons c cs ih =>
    rw [searchBoundary] at h
    rw [List.cons_append, searchBoundary, ← List.cons_append]
    split at h
    · rename_i rest' hmatch
      obtain ⟨rfl, rfl⟩ := Prod.mk.inj (Option.some.inj h)
      rw [matchBoundary_append hmatch]
    · rename_i hmatch
      obtain ⟨⟨block', rest'⟩, hfound, heq⟩ := Option.map_eq_some_iff.1 h
      obtain ⟨rfl, rfl⟩ := Prod.mk.inj heq
      have hnone := not_matchBoundary_append hmatch hfound more
      rw [hnone, ih hfound]
      rfl

theorem length_searchBoundary {cs block rest : List Char} (h : searchBoundary cs = some (block, rest)) :
    rest.length < cs.length := by
  induction cs generalizing block with
  | nil => cases h
  | cons c cs ih =>
    rw [searchBoundary] at h
    split at h
    · rename_i rest' hmatch
      obtain ⟨-, rfl⟩ := Prod.mk.inj (Option.some.inj h)
      obtain ⟨mid, hmid, hrest⟩ := Option.bind_eq_some_iff.1 hmatch
      exact Nat.lt_trans (length_matchBreak hrest) (length_matchBreak hmid)
    · obtain ⟨⟨block', rest'⟩, hfound, heq⟩ := Option.map_eq_some_iff.1 h
      obtain ⟨-, rfl⟩ := Prod.mk.inj heq
      exact Nat.lt_succ_of_lt (ih hfound)

theorem searchBoundary_plain {line : List Char} (h : Plain line) (cs : List Char) :
    searchBoundary (line ++ cs) = (searchBoundary cs).map fun found => (line ++ found.1, found.2) := by
  induction line with
  | nil => simp
  | cons c line ih =>
    have hc := h c (by simp)
    have hnone : matchBoundary (c :: (line ++ cs)) = none := by
      rw [matchBoundary, matchBreak_cons hc, Option.bind_none]
    rw [List.cons_append, searchBoundary, hnone, ih fun e he => h e (List.mem_cons_of_mem _ he), Option.map_map]
    rfl

/-- Lines that are not empty, with an empty one after them, are the first block. -/
theorem searchBoundary_intercalate {lines : List (List Char)} (hne : lines ≠ [])
    (h : ∀ line ∈ lines, Plain line ∧ line ≠ []) (rest : List Char) :
    searchBoundary (['\n'].intercalate lines ++ '\n' :: '\n' :: rest) = some (['\n'].intercalate lines, rest) := by
  induction lines with
  | nil => exact absurd rfl hne
  | cons line lines ih =>
    have hline := (h line (by simp)).1
    cases lines with
    | nil =>
      rw [List.intercalate_singleton, searchBoundary_plain hline]
      simp [searchBoundary, matchBoundary, matchBreak]
    | cons next lines =>
      have hrest := ih (by simp) fun l hl => h l (List.mem_cons_of_mem _ hl)
      obtain ⟨hplain, hnext⟩ := h next (by simp)
      -- the line break between two lines is no boundary, since the next line is not empty
      have hbreak : matchBreak (['\n'].intercalate (next :: lines) ++ '\n' :: '\n' :: rest) = none := by
        obtain ⟨c, cs, rfl⟩ := List.exists_cons_of_ne_nil hnext
        have hc := hplain c (by simp)
        have hstart : ∃ more, ['\n'].intercalate ((c :: cs) :: lines) = c :: more := by
          cases lines with
          | nil => exact ⟨cs, by rw [List.intercalate_singleton]⟩
          | cons l lines => exact ⟨_, by rw [List.intercalate_cons_cons]; rfl⟩
        obtain ⟨more, hmore⟩ := hstart
        rw [hmore]
        exact matchBreak_cons hc _
      have hnone : matchBoundary ('\n' :: (['\n'].intercalate (next :: lines) ++ '\n' :: '\n' :: rest)) = none := hbreak
      rw [List.intercalate_cons_cons, List.append_assoc, List.append_assoc, searchBoundary_plain hline,
        List.singleton_append, searchBoundary, hnone, hrest]
      simp

section

variable {σ ε : Type*} (handle : σ → List Char → Except ε σ)

/-- Handles the blocks of the buffer, as long as there is a boundary. -/
def drain (buffer : List Char) (s : σ) : Except ε (List Char × σ) :=
  match h : searchBoundary buffer with
  | none => .ok (buffer, s)
  | some (block, rest) =>
    have : rest.length < buffer.length := length_searchBoundary h
    (handle s block).bind fun s => drain rest s
termination_by buffer.length

/-- Puts the chunks into the buffer one after the other and handles the blocks there are. The blocks are looked for
once more when the stream is done. -/
def feed : List Char → σ → List (List Char) → Except ε σ
  | buffer, s, [] => (drain handle buffer s).map Prod.snd
  | buffer, s, chunk :: chunks => (drain handle (buffer ++ chunk) s).bind fun r => feed r.1 r.2 chunks

variable {handle}

theorem drain_none {buffer : List Char} {s : σ} (h : searchBoundary buffer = none) :
    drain handle buffer s = .ok (buffer, s) := by
  rw [drain]
  split
  · rfl
  · rename_i hsome
    rw [h] at hsome
    cases hsome

theorem drain_some {buffer block rest : List Char} {s : σ} (h : searchBoundary buffer = some (block, rest)) :
    drain handle buffer s = (handle s block).bind fun s => drain handle rest s := by
  rw [drain]
  split
  · rename_i hnone
    rw [h] at hnone
    cases hnone
  · rename_i hsome
    rw [h] at hsome
    obtain ⟨rfl, rfl⟩ := Prod.mk.inj (Option.some.inj hsome)
    rfl

/-- What is left in the buffer is looked at again with what arrives. -/
theorem drain_append (buffer more : List Char) (s : σ) :
    drain handle (buffer ++ more) s = (drain handle buffer s).bind fun r => drain handle (r.1 ++ more) r.2 := by
  induction hn : buffer.length using Nat.strongRecOn generalizing buffer s with
  | ind n ih =>
    cases hfound : searchBoundary buffer with
    | none =>
      rw [drain_none hfound]
      rfl
    | some found =>
      obtain ⟨block, rest⟩ := found
      rw [drain_some hfound, drain_some (searchBoundary_append hfound more)]
      cases handle s block with
      | error e => rfl
      | ok s' => exact ih rest.length (hn ▸ length_searchBoundary hfound) rest s' rfl

theorem feed_eq (buffer : List Char) (s : σ) (chunks : List (List Char)) :
    feed handle buffer s chunks = (drain handle (buffer ++ chunks.flatten) s).map Prod.snd := by
  induction chunks generalizing buffer s with
  | nil => rw [feed, List.flatten_nil, List.append_nil]
  | cons chunk chunks ih =>
    rw [feed, List.flatten_cons, ← List.append_assoc, drain_append (buffer ++ chunk)]
    cases drain handle (buffer ++ chunk) s with
    | error e => rfl
    | ok r => exact ih r.1 r.2

end

end Lines
