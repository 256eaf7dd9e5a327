import InvoiceOps.Lib.Text

/-! Texts whose blanks stand between their words. `Squeezes cs js` says that `js` is `cs` with one blank for each run
of white space, no white space being at the ends; joining the words of such a text squeezes it. -/

namespace Text

inductive Squeezes : List Char → List Char → Prop
  | last {c : Char} (hc : isSpace c = false) : Squeezes [c] [c]
  | char {c : Char} {cs js : List Char} (hc : isSpace c = false) (h : Squeezes cs js) : Squeezes (c :: cs) (c :: js)
  | gap {c : Char} {blanks cs js : List Char} (hc : isSpace c = false) (hne : blanks ≠ [])
      (hblanks : ∀ b ∈ blanks, isSpace b = true) (h : Squeezes cs js) : Squeezes (c :: (blanks ++ cs)) (c :: ' ' :: js)

/-- What is left of some white space between two words. -/
def squeezed (blanks : List Char) : List Char := if blanks = [] then [] else [' ']

theorem words_singleton {c : Char} (hc : isSpace c = false) : words [c] = [[c]] := by
  rw [words, List.splitOnP_eq_singleton (by simpa using hc)]
  rfl

/-- A further letter at the front of a word. -/
theorem words_cons_cons {c d : Char} {cs : List Char} (hc : isSpace c = false) (hd : isSpace d = false) :
    words (c :: d :: cs) = (words (d :: cs)).modifyHead (List.cons c) := by
  obtain ⟨w, ws, hsplit⟩ := List.exists_cons_of_ne_nil (List.splitOnP_ne_nil isSpace cs)
  simp [words, List.splitOnP_cons_eq_if_modifyHead, hc, hd, hsplit]

theorem words_blanks {blanks : List Char} (cs : List Char) (hblanks : ∀ b ∈ blanks, isSpace b = true) :
    words (blanks ++ cs) = words cs := by
  induction blanks with
  | nil => rfl
  | cons b blanks ih =>
    obtain ⟨hb, hrest⟩ := List.forall_mem_cons.1 hblanks
    rw [← ih hrest, words, List.cons_append, List.splitOnP_cons_eq_if_modifyHead, if_pos hb]
    exact List.filter_cons_of_neg (by simp)

/-- A letter that is a word of its own. -/
theorem words_gap {c : Char} {blanks cs : List Char} (hc : isSpace c = false) (hne : blanks ≠ [])
    (hblanks : ∀ b ∈ blanks, isSpace b = true) : words (c :: (blanks ++ cs)) = [c] :: words cs := by
  obtain ⟨b, rest, rfl⟩ := List.exists_cons_of_ne_nil hne
  obtain ⟨hb, hrest⟩ := List.forall_mem_cons.1 hblanks
  rw [← words_blanks cs hrest, words]
  have hword : ∀ x ∈ [c], isSpace x = false := by simpa using hc
  have hsplit := List.splitOnP_append_cons_of_forall_mem hword b hb (rest ++ cs)
  rw [List.singleton_append] at hsplit
  rw [List.cons_append, hsplit]
  exact List.filter_cons_of_pos (by simp)

namespace Squeezes

variable {cs js ds ks : List Char}

theorem head (h : Squeezes cs js) : ∃ c t u, cs = c :: t ∧ js = c :: u ∧ isSpace c = false := by
  cases h with
  | last hc => exact ⟨_, _, _, rfl, rfl, hc⟩
  | char hc _ => exact ⟨_, _, _, rfl, rfl, hc⟩
  | gap hc _ _ _ => exact ⟨_, _, _, rfl, rfl, hc⟩

theorem words_eq (h : Squeezes cs js) : words cs ≠ [] ∧ joinWords cs = js := by
  induction h with
  | last hc =>
    rw [joinWords, words_singleton hc]
    exact ⟨List.cons_ne_nil _ _, rfl⟩
  | @char c cs js hc h ih =>
    obtain ⟨d, t, u, rfl, rfl, hd⟩ := h.head
    obtain ⟨w, ws, hwords⟩ := List.exists_cons_of_ne_nil ih.1
    rw [joinWords, words_cons_cons hc hd, ← ih.2, joinWords, hwords, List.modifyHead_cons]
    refine ⟨List.cons_ne_nil _ _, ?_⟩
    cases ws with
    | nil => simp
    | cons w' ws => simp [List.intercalate_cons_cons]
  | @gap c blanks cs js hc hne hblanks h ih =>
    obtain ⟨w, ws, hwords⟩ := List.exists_cons_of_ne_nil ih.1
    rw [joinWords, words_gap hc hne hblanks, ← ih.2, joinWords, hwords]
    exact ⟨List.cons_ne_nil _ _, by simp [List.intercalate_cons_cons]⟩

theorem joinWords_eq (h : Squeezes cs js) : joinWords cs = js := h.words_eq.2

/-- A word is not changed. -/
theorem word (hne : cs ≠ []) (h : ∀ c ∈ cs, isSpace c = false) : Squeezes cs cs := by
  induction cs with
  | nil => exact absurd rfl hne
  | cons c cs ih =>
    obtain ⟨hc, hcs⟩ := List.forall_mem_cons.1 h
    cases cs with
    | nil => exact .last hc
    | cons d cs => exact .char hc (ih (List.cons_ne_nil d cs) hcs)

theorem append_gap {blanks : List Char} (h : Squeezes cs js) (hblanks : ∀ b ∈ blanks, isSpace b = true)
    (h' : Squeezes ds ks) : Squeezes (cs ++ (blanks ++ ds)) (js ++ (squeezed blanks ++ ks)) := by
  induction h with
  | @last c hc =>
    by_cases hnil : blanks = []
    · subst hnil
      exact .char hc h'
    · rw [squeezed, if_neg hnil]
      have hgap : Squeezes (c :: (blanks ++ ds)) (c :: ' ' :: ks) := .gap hc hnil hblanks h'
      exact hgap
  | char hc _ ih => exact .char hc ih
  | gap hc hne hblanks' _ ih =>
    rw [List.cons_append, List.append_assoc]
    exact .gap hc hne hblanks' ih

theorem append (h : Squeezes cs js) (h' : Squeezes ds ks) : Squeezes (cs ++ ds) (js ++ ks) := by
  have hnone : ∀ b ∈ ([] : List Char), isSpace b = true := by simp
  exact h.append_gap hnone h'

/-- The only white space left is a blank. -/
theorem blank_of_space (h : Squeezes cs js) : ∀ c ∈ js, isSpace c = true → c = ' ' := by
  induction h with
  | last hc => simp [hc]
  | char hc _ ih => exact List.forall_mem_cons.2 ⟨by simp [hc], ih⟩
  | gap hc _ _ _ ih => exact List.forall_mem_cons.2 ⟨by simp [hc], List.forall_mem_cons.2 ⟨fun _ => rfl, ih⟩⟩

theorem getLast (h : Squeezes cs js) : ∃ c ∈ js.getLast?, isSpace c = false := by
  induction h with
  | last hc => exact ⟨_, rfl, hc⟩
  | char _ h ih =>
    obtain ⟨d, t, u, -, rfl, -⟩ := h.head
    simpa using ih
  | gap _ _ _ h ih =>
    obtain ⟨d, t, u, -, rfl, -⟩ := h.head
    simpa using ih

/-- There is nothing to strip. -/
theorem stripBy_eq (h : Squeezes cs js) : stripBy isSpace js = js := by
  obtain ⟨c, t, u, -, hhead, hc⟩ := h.head
  obtain ⟨d, hlast, hd⟩ := h.getLast
  have hfirst : js.dropWhile isSpace = js := by rw [hhead, List.dropWhile_cons_of_neg (by simp [hc])]
  have hreverse : js.reverse.dropWhile isSpace = js.reverse := by
    have hrev : js.reverse.head? = some d := by rw [List.head?_reverse]; exact hlast
    cases hjs : js.reverse with
    | nil => rfl
    | cons e r =>
      rw [hjs] at hrev
      obtain rfl := Option.some.inj hrev
      exact List.dropWhile_cons_of_neg (by simp [hd])
  rw [stripBy, hfirst, hreverse, List.reverse_reverse]

end Squeezes

end Text
