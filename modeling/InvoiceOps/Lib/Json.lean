import InvoiceOps.Lib.Digits
import Mathlib.Data.List.Sort
import Mathlib.Data.List.Perm.Basic
import Mathlib.Logic.Relation
import Mathlib.Tactic

/-! JSON values and their canonical text: no blanks, keys in code-point order at every level. The
text determines the value up to the order of object keys. Printing is parameterised by the way a
character of a string is escaped; what the proofs need of an escaping is `EscapeCode`. -/

inductive Json where
  | null
  | bool (b : Bool)
  | int (i : ℤ)
  | str (s : String)
  | arr (xs : List Json)
  | obj (kvs : List (String × Json))

namespace Json

/-- Induction over values: at an array or an object the claim is known of all members. -/
theorem induct {P : Json → Prop} (null : P .null) (bool : ∀ b, P (.bool b)) (int : ∀ i, P (.int i))
    (str : ∀ s, P (.str s)) (arr : ∀ xs, (∀ x ∈ xs, P x) → P (.arr xs))
    (obj : ∀ kvs, (∀ p ∈ kvs, P p.2) → P (.obj kvs)) : ∀ v, P v := by
  intro v
  refine @Json.rec P (fun xs => ∀ x ∈ xs, P x) (fun kvs => ∀ p ∈ kvs, P p.2) (fun p => P p.2)
    null bool int str arr obj ?_ ?_ ?_ ?_ ?_ v
  · simp
  · intro x xs hx hxs y hy
    rcases List.mem_cons.1 hy with rfl | hy
    · exact hx
    · exact hxs y hy
  · simp
  · intro p kvs hp hkvs q hq
    rcases List.mem_cons.1 hq with rfl | hq
    · exact hp
    · exact hkvs q hq
  · intro k v hv; exact hv

/-- Equality up to the order of object keys. -/
inductive Same : Json → Json → Prop
  | null : Same .null .null
  | bool (b : Bool) : Same (.bool b) (.bool b)
  | int (i : ℤ) : Same (.int i) (.int i)
  | str (s : String) : Same (.str s) (.str s)
  | arr {xs ys : List Json} : List.Forall₂ Same xs ys → Same (.arr xs) (.arr ys)
  | obj {kvs mid kvs' : List (String × Json)} : kvs.Perm mid →
      mid.map Prod.fst = kvs'.map Prod.fst →
      List.Forall₂ Same (mid.map Prod.snd) (kvs'.map Prod.snd) → Same (.obj kvs) (.obj kvs')

def keyLe (p q : String × Json) : Prop := p.1 ≤ q.1

instance : DecidableRel keyLe := fun p q => inferInstanceAs (Decidable (p.1 ≤ q.1))

mutual

/-- The value with the keys of every object in order. -/
def canon : Json → Json
  | .null => .null
  | .bool b => .bool b
  | .int i => .int i
  | .str s => .str s
  | .arr xs => .arr (canonList xs)
  | .obj kvs => .obj ((canonFields kvs).insertionSort keyLe)

def canonList : List Json → List Json
  | [] => []
  | x :: xs => canon x :: canonList xs

def canonFields : List (String × Json) → List (String × Json)
  | [] => []
  | (k, v) :: kvs => (k, canon v) :: canonFields kvs

end

theorem canonList_eq (xs : List Json) : canonList xs = xs.map canon := by
  induction xs with
  | nil => rfl
  | cons x xs ih => simp [canonList, ih]

theorem canonFields_eq (kvs : List (String × Json)) :
    canonFields kvs = kvs.map fun p => (p.1, canon p.2) := by
  induction kvs with
  | nil => rfl
  | cons p kvs ih => simp [canonFields, ih]

theorem forall₂_of_map_eq {α β : Type*} {f : α → β} {xs ys : List α} (h : xs.map f = ys.map f) :
    List.Forall₂ (fun x y => f x = f y) xs ys := by
  have he : List.Forall₂ Eq (xs.map f) (ys.map f) := by rw [List.forall₂_eq_eq_eq]; exact h
  rw [List.forall₂_map_left_iff, List.forall₂_map_right_iff] at he
  exact he

/-- A permutation of images comes from a permutation of the members. -/
theorem exists_perm_of_perm_map {α β : Type*} {f : α → β} {xs ys : List α}
    (h : (xs.map f).Perm (ys.map f)) :
    ∃ zs, xs.Perm zs ∧ List.Forall₂ (fun x y => f x = f y) zs ys := by
  have hgraph : List.Forall₂ (fun x b => f x = b) xs (xs.map f) := by
    rw [List.forall₂_map_right_iff]
    exact List.forall₂_same.2 fun _ _ => rfl
  have hcomp : Relation.Comp (List.Forall₂ fun x b => f x = b) List.Perm xs (ys.map f) :=
    ⟨_, hgraph, h⟩
  rw [List.forall₂_comp_perm_eq_perm_comp_forall₂] at hcomp
  obtain ⟨zs, hperm, hzs⟩ := hcomp
  exact ⟨zs, hperm, (List.forall₂_map_right_iff).1 hzs⟩

theorem same_of_canon_eq {v w : Json} (h : canon v = canon w) : Same v w := by
  induction v using Json.induct generalizing w with
  | null => cases w <;> simp [canon] at h; exact Same.null
  | bool b => cases w <;> simp [canon] at h; subst h; exact Same.bool _
  | int i => cases w <;> simp [canon] at h; subst h; exact Same.int _
  | str s => cases w <;> simp [canon] at h; subst h; exact Same.str _
  | arr xs ih =>
    cases w <;> simp [canon] at h
    rename_i ys
    rw [canonList_eq, canonList_eq] at h
    have hall := forall₂_of_map_eq h
    refine Same.arr (List.forall₂_iff_get.2 ⟨hall.length_eq, fun i hi hi' => ?_⟩)
    exact ih _ (List.get_mem xs ⟨i, hi⟩) ((List.forall₂_iff_get.1 hall).2 i hi hi')
  | obj kvs ih =>
    cases w <;> simp [canon] at h
    rename_i kvs'
    have hperm : (canonFields kvs).Perm (canonFields kvs') :=
      (List.perm_insertionSort keyLe _).symm.trans (h ▸ List.perm_insertionSort keyLe _)
    rw [canonFields_eq, canonFields_eq] at hperm
    obtain ⟨mid, hmid, hall⟩ := exists_perm_of_perm_map hperm
    have hfield : List.Forall₂ (fun p q => p.1 = q.1 ∧ Same p.2 q.2) mid kvs' := by
      refine List.forall₂_iff_get.2 ⟨hall.length_eq, fun i hi hi' => ?_⟩
      have hget := (List.forall₂_iff_get.1 hall).2 i hi hi'
      simp only [Prod.mk.injEq] at hget
      exact ⟨hget.1, ih _ (hmid.mem_iff.2 (List.get_mem mid ⟨i, hi⟩)) hget.2⟩
    refine Same.obj hmid ?_ ?_
    · rw [← List.forall₂_eq_eq_eq, List.forall₂_map_left_iff, List.forall₂_map_right_iff]
      exact hfield.imp fun _ _ h => h.1
    · rw [List.forall₂_map_left_iff, List.forall₂_map_right_iff]
      exact hfield.imp fun _ _ h => h.2

/-- Values equal up to key order have the same members under the same keys. -/
theorem Same.field {kvs kvs' : List (String × Json)} (h : Same (.obj kvs) (.obj kvs'))
    {k : String} {v : Json} (hv : (k, v) ∈ kvs) : ∃ w, (k, w) ∈ kvs' ∧ Same v w := by
  cases h with
  | obj hperm hkeys hall =>
    rename_i mid
    rw [List.forall₂_map_left_iff, List.forall₂_map_right_iff] at hall
    obtain ⟨i, hi, hget⟩ := List.mem_iff_getElem.1 (hperm.mem_iff.1 hv)
    have hi' : i < kvs'.length := hall.length_eq ▸ hi
    have hs := (List.forall₂_iff_get.1 hall).2 i hi hi'
    have hk : (mid.map Prod.fst)[i]? = (kvs'.map Prod.fst)[i]? := by rw [hkeys]
    simp only [List.get_eq_getElem, hget] at hs
    simp only [List.getElem?_map, List.getElem?_eq_getElem hi, List.getElem?_eq_getElem hi', hget,
      Option.map_some, Option.some.injEq] at hk
    exact ⟨kvs'[i].2, by rw [hk]; exact List.getElem_mem hi', hs⟩

/-- With the same distinct keys in the same order, the members are equal one by one. -/
theorem Same.values {kvs kvs' : List (String × Json)} (h : Same (.obj kvs) (.obj kvs'))
    (hkeys : kvs.map Prod.fst = kvs'.map Prod.fst) (hnd : (kvs'.map Prod.fst).Nodup) :
    List.Forall₂ Same (kvs.map Prod.snd) (kvs'.map Prod.snd) := by
  have hlen : kvs.length = kvs'.length := by simpa using congrArg List.length hkeys
  rw [List.forall₂_map_left_iff, List.forall₂_map_right_iff]
  refine List.forall₂_iff_get.2 ⟨hlen, fun i hi hi' => ?_⟩
  obtain ⟨w, hw, hs⟩ := h.field (List.get_mem kvs ⟨i, hi⟩)
  have hk : (kvs.map Prod.fst)[i]? = (kvs'.map Prod.fst)[i]? := by rw [hkeys]
  simp only [List.getElem?_map, List.getElem?_eq_getElem hi, List.getElem?_eq_getElem hi', Option.map_some,
    Option.some.injEq] at hk
  have heq : ((kvs.get ⟨i, hi⟩).1, w) = kvs'.get ⟨i, hi'⟩ :=
    List.inj_on_of_nodup_map hnd hw (List.get_mem _ _) hk
  rw [← heq]
  exact hs

variable (esc : Char → List Char)

def intChars (i : ℤ) : List Char :=
  if i < 0 then '-' :: Nat.toDigits 10 i.natAbs else Nat.toDigits 10 i.natAbs

def quote (s : String) : List Char := '"' :: (s.toList.flatMap esc ++ ['"'])

mutual

def print : Json → List Char
  | .null => ['n', 'u', 'l', 'l']
  | .bool true => ['t', 'r', 'u', 'e']
  | .bool false => ['f', 'a', 'l', 's', 'e']
  | .int i => intChars i
  | .str s => quote esc s
  | .arr xs => '[' :: printList [] xs
  | .obj kvs => '{' :: printFields [] kvs

/-- The rest of an array: members, each after the separator due before it, and the bracket. -/
def printList (sep : List Char) : List Json → List Char
  | [] => [']']
  | x :: xs => sep ++ (print x ++ printList [','] xs)

def printFields (sep : List Char) : List (String × Json) → List Char
  | [] => ['}']
  | (k, v) :: kvs => sep ++ (quote esc k ++ ':' :: (print v ++ printFields [','] kvs))

end

/-- The canonical text of a value. -/
def dumps (v : Json) : String := String.ofList (print esc (canon v))

/-- What makes an escaping readable: each code is recognised by its own characters, and none
starts with the quote that ends a string. -/
structure EscapeCode (esc : Char → List Char) : Prop where
  inj : ∀ {c c' : Char} {r r' : List Char}, esc c ++ r = esc c' ++ r' → c = c' ∧ r = r'
  start : ∀ c : Char, ∃ a t, esc c = a :: t ∧ a ≠ '"'

section Injective

variable {esc}

theorem intChars_append_inj {i j : ℤ} {r r' : List Char} (hr : Digits.Stops r)
    (hr' : Digits.Stops r') (h : intChars i ++ r = intChars j ++ r') : i = j ∧ r = r' := by
  have hminus : ∀ (n m : ℕ) (t t' : List Char),
      '-' :: (Nat.toDigits 10 n ++ t) ≠ Nat.toDigits 10 m ++ t' := by
    intro n m t t' he
    have hmem : '-' ∈ Nat.toDigits 10 m := by
      have hne := Nat.toDigits_ne_nil (n := m) (b := 10)
      cases hd : Nat.toDigits 10 m with
      | nil => exact absurd hd hne
      | cons a ds =>
        rw [hd, List.cons_append, List.cons.injEq] at he
        rw [← he.1]; simp
    exact absurd (Digits.isDigit_toDigits hmem) (by decide)
  unfold intChars at h
  split_ifs at h with hi hj hj
  · obtain ⟨hn, hr⟩ := Digits.toDigits_append_inj hr hr' (List.cons.inj h).2
    exact ⟨by omega, hr⟩
  · exact absurd h (hminus _ _ _ _)
  · exact absurd h.symm (hminus _ _ _ _)
  · obtain ⟨hn, hr⟩ := Digits.toDigits_append_inj hr hr' h
    exact ⟨by omega, hr⟩

theorem escaped_append_inj (he : EscapeCode esc) {cs cs' r r' : List Char}
    (h : cs.flatMap esc ++ '"' :: r = cs'.flatMap esc ++ '"' :: r') : cs = cs' ∧ r = r' := by
  induction cs generalizing cs' with
  | nil =>
    cases cs' with
    | nil => simpa using h
    | cons c cs' =>
      obtain ⟨a, t, hc, ha⟩ := he.start c
      simp only [List.flatMap_nil, List.nil_append, List.flatMap_cons, hc, List.cons_append,
        List.cons.injEq] at h
      exact absurd h.1.symm ha
  | cons c cs ih =>
    cases cs' with
    | nil =>
      obtain ⟨a, t, hc, ha⟩ := he.start c
      simp only [List.flatMap_nil, List.nil_append, List.flatMap_cons, hc, List.cons_append,
        List.cons.injEq] at h
      exact absurd h.1 ha
    | cons c' cs' =>
      simp only [List.flatMap_cons, List.append_assoc] at h
      obtain ⟨hc, ht⟩ := he.inj h
      obtain ⟨hcs, hr⟩ := ih ht
      exact ⟨by rw [hc, hcs], hr⟩

theorem quote_append_inj (he : EscapeCode esc) {s t : String} {r r' : List Char}
    (h : quote esc s ++ r = quote esc t ++ r') : s = t ∧ r = r' := by
  simp only [quote, List.cons_append, List.append_assoc, List.nil_append, List.cons.injEq,
    true_and] at h
  obtain ⟨hs, hr⟩ := escaped_append_inj he h
  exact ⟨String.toList_inj.1 hs, hr⟩

/-- The kind of value a text starts, by its first character. -/
def kindOfChar (c : Char) : ℕ :=
  if c = 'n' then 0 else if c = 't' ∨ c = 'f' then 1 else if c = '"' then 3
  else if c = '[' then 4 else if c = '{' then 5 else 2

def kind : Json → ℕ
  | .null => 0
  | .bool _ => 1
  | .int _ => 2
  | .str _ => 3
  | .arr _ => 4
  | .obj _ => 5

theorem kindOfChar_digit {c : Char} (h : c.isDigit = true) : kindOfChar c = 2 := by
  unfold kindOfChar
  split_ifs with h1 h2 h3 h4 h5
  · subst h1; exact absurd h (by decide)
  · rcases h2 with rfl | rfl <;> exact absurd h (by decide)
  · subst h3; exact absurd h (by decide)
  · subst h4; exact absurd h (by decide)
  · subst h5; exact absurd h (by decide)
  · rfl

theorem print_start (v : Json) : ∃ c t, print esc v = c :: t ∧ kindOfChar c = kind v := by
  cases v with
  | null => exact ⟨_, _, by rw [print], rfl⟩
  | bool b => cases b <;> exact ⟨_, _, by rw [print], rfl⟩
  | int i =>
    rw [print]; unfold intChars
    split_ifs with hi
    · exact ⟨_, _, rfl, rfl⟩
    · cases hd : Nat.toDigits 10 i.natAbs with
      | nil => exact absurd hd Nat.toDigits_ne_nil
      | cons c t => exact ⟨c, t, rfl, kindOfChar_digit (Digits.isDigit_toDigits (by rw [hd]; simp))⟩
  | str s => exact ⟨_, _, by rw [print, quote], rfl⟩
  | arr xs => exact ⟨_, _, by rw [print], rfl⟩
  | obj kvs => exact ⟨_, _, by rw [print], rfl⟩

theorem kind_eq_of_print {v w : Json} {r r' : List Char}
    (h : print esc v ++ r = print esc w ++ r') : kind v = kind w := by
  obtain ⟨c, t, hv, hc⟩ := @print_start esc v
  obtain ⟨c', t', hw, hc'⟩ := @print_start esc w
  rw [hv, hw, List.cons_append, List.cons_append, List.cons.injEq] at h
  rw [← hc, ← hc', h.1]

theorem stops_printList (xs : List Json) (r : List Char) :
    Digits.Stops (printList esc [','] xs ++ r) := by
  cases xs <;> simp [printList, Digits.Stops]

theorem stops_printFields (kvs : List (String × Json)) (r : List Char) :
    Digits.Stops (printFields esc [','] kvs ++ r) := by
  cases kvs <;> simp [printFields, Digits.Stops]

/-- The separator due before the first member is not what closes the list. -/
def Sep (close : Char) (sep : List Char) : Prop := sep = [] ∨ (∃ c t, sep = c :: t ∧ c ≠ close)

theorem print_ne_close {v : Json} {c : Char} {r r' : List Char} {sep : List Char}
    (hsep : Sep c sep) (hc : kindOfChar c = 2) (hd : c.isDigit = false) (hm : c ≠ '-') :
    c :: r ≠ sep ++ (print esc v ++ r') := by
  rcases hsep with rfl | ⟨a, t, rfl, ha⟩
  · obtain ⟨a, t, hv, hk⟩ := @print_start esc v
    rw [hv]
    intro h
    obtain rfl : c = a := (List.cons.inj h).1
    cases v with
    | int i =>
      -- only a number could start like the bracket, and it starts with a digit or a minus sign
      rw [print] at hv; unfold intChars at hv
      split_ifs at hv with hi
      · exact hm (List.cons.inj hv).1.symm
      · have hmem : c ∈ Nat.toDigits 10 i.natAbs := by rw [hv]; simp
        exact absurd (Digits.isDigit_toDigits hmem) (by simp [hd])
    | null | bool _ | str _ | arr _ | obj _ => simp [kind, hc] at hk
  · intro h
    exact ha (List.cons.inj h).1.symm

theorem printList_append_inj {xs : List Json}
    (ih : ∀ x ∈ xs, ∀ w r r', Digits.Stops r → Digits.Stops r' →
      print esc x ++ r = print esc w ++ r' → x = w ∧ r = r')
    {ys : List Json} {sep r r' : List Char} (hsep : Sep ']' sep)
    (h : printList esc sep xs ++ r = printList esc sep ys ++ r') : xs = ys ∧ r = r' := by
  induction xs generalizing ys sep with
  | nil =>
    cases ys with
    | nil => simpa [printList] using h
    | cons y ys =>
      simp only [printList, List.append_assoc, List.cons_append, List.nil_append] at h
      exact absurd h (print_ne_close hsep rfl rfl (by decide))
  | cons x xs ihl =>
    cases ys with
    | nil =>
      simp only [printList, List.append_assoc, List.cons_append, List.nil_append] at h
      exact absurd h.symm (print_ne_close hsep rfl rfl (by decide))
    | cons y ys =>
      simp only [printList, List.append_assoc] at h
      obtain ⟨hx, ht⟩ := ih x (by simp) y _ _ (stops_printList _ _) (stops_printList _ _)
        (List.append_cancel_left h)
      obtain ⟨hxs, hr⟩ := ihl (fun z hz => ih z (by simp [hz])) (Or.inr ⟨',', [], rfl, by decide⟩) ht
      exact ⟨by rw [hx, hxs], hr⟩

theorem printFields_append_inj (he : EscapeCode esc) {kvs : List (String × Json)}
    (ih : ∀ p ∈ kvs, ∀ w r r', Digits.Stops r → Digits.Stops r' →
      print esc p.2 ++ r = print esc w ++ r' → p.2 = w ∧ r = r')
    {kvs' : List (String × Json)} {sep r r' : List Char} (hsep : Sep '}' sep)
    (h : printFields esc sep kvs ++ r = printFields esc sep kvs' ++ r') : kvs = kvs' ∧ r = r' := by
  have hclose : ∀ (k : String) (t t' : List Char), '}' :: t ≠ sep ++ (quote esc k ++ t') := by
    intro k t t'
    rcases hsep with rfl | ⟨a, u, rfl, ha⟩
    · simp [quote]
    · intro h; exact ha (List.cons.inj h).1.symm
  induction kvs generalizing kvs' sep with
  | nil =>
    cases kvs' with
    | nil => simpa [printFields] using h
    | cons q kvs' =>
      simp only [printFields, List.append_assoc, List.cons_append, List.nil_append] at h
      exact absurd h (hclose _ _ _)
  | cons p kvs ihl =>
    cases kvs' with
    | nil =>
      simp only [printFields, List.append_assoc, List.cons_append, List.nil_append] at h
      exact absurd h.symm (hclose _ _ _)
    | cons q kvs' =>
      obtain ⟨k, v⟩ := p
      obtain ⟨k', v'⟩ := q
      simp only [printFields, List.append_assoc, List.cons_append] at h
      obtain ⟨hk, ht⟩ := quote_append_inj he (List.append_cancel_left h)
      obtain ⟨hv, ht⟩ := ih (k, v) (by simp) v' _ _ (stops_printFields _ _) (stops_printFields _ _)
        (List.cons.inj ht).2
      obtain ⟨hkvs, hr⟩ := ihl (fun z hz => ih z (by simp [hz]))
        (Or.inr ⟨',', [], rfl, by decide⟩) ht (by intro k t t'; simp)
      exact ⟨by rw [hk, show v = v' from hv, hkvs], hr⟩

/-- A printed value followed by something that is not a digit can be read back. -/
theorem print_append_inj (he : EscapeCode esc) {v w : Json} {r r' : List Char}
    (hr : Digits.Stops r) (hr' : Digits.Stops r') (h : print esc v ++ r = print esc w ++ r') :
    v = w ∧ r = r' := by
  induction v using Json.induct generalizing w r r' with
  | null =>
    have hk := kind_eq_of_print h
    cases w <;> simp [kind] at hk
    simpa [print] using h
  | bool b =>
    have hk := kind_eq_of_print h
    cases w <;> simp [kind] at hk
    rename_i b'
    cases b <;> cases b' <;> simp [print] at h <;> exact ⟨rfl, h⟩
  | int i =>
    have hk := kind_eq_of_print h
    cases w <;> simp [kind] at hk
    rw [print, print] at h
    obtain ⟨hi, ht⟩ := intChars_append_inj hr hr' h
    exact ⟨by rw [hi], ht⟩
  | str s =>
    have hk := kind_eq_of_print h
    cases w <;> simp [kind] at hk
    rw [print, print] at h
    obtain ⟨hs, ht⟩ := quote_append_inj he h
    exact ⟨by rw [hs], ht⟩
  | arr xs ih =>
    have hk := kind_eq_of_print h
    cases w <;> simp [kind] at hk
    rw [print, print, List.cons_append, List.cons_append] at h
    obtain ⟨hxs, ht⟩ := printList_append_inj (fun x hx w r r' h1 h2 h3 => ih x hx h1 h2 h3)
      (Or.inl rfl) (List.cons.inj h).2
    exact ⟨by rw [hxs], ht⟩
  | obj kvs ih =>
    have hk := kind_eq_of_print h
    cases w <;> simp [kind] at hk
    rw [print, print, List.cons_append, List.cons_append] at h
    obtain ⟨hkvs, ht⟩ := printFields_append_inj he (fun x hx w r r' h1 h2 h3 => ih x hx h1 h2 h3)
      (Or.inl rfl) (List.cons.inj h).2
    exact ⟨by rw [hkvs], ht⟩

/-- Equal canonical texts come from values equal up to key order. -/
theorem same_of_dumps_eq (he : EscapeCode esc) {v w : Json} (h : dumps esc v = dumps esc w) :
    Same v w := by
  have hp : print esc (canon v) ++ [] = print esc (canon w) ++ [] := by
    simpa using String.ofList_injective h
  exact same_of_canon_eq (print_append_inj he (by simp [Digits.Stops]) (by simp [Digits.Stops]) hp).1

end Injective

/-- The characters with a two-character escape, and the character after the backslash. -/
def shortEscapes : List (Char × Char) :=
  [('"', '"'), ('\\', '\\'), ('\n', 'n'), ('\r', 'r'), ('\t', 't'), ('\x08', 'b'), ('\x0c', 'f')]

def hexEscape (n : ℕ) : List Char := '\\' :: 'u' :: Digits.fixed 16 4 n

/-- Only the quote, the backslash and control characters are escaped. -/
def escape (c : Char) : List Char :=
  match shortEscapes.lookup c with
  | some x => ['\\', x]
  | none => if c.toNat < 0x20 then hexEscape c.toNat else [c]

/-- Everything outside printable ASCII is escaped, beyond the basic plane by a surrogate pair. -/
def escapeAscii (c : Char) : List Char :=
  match shortEscapes.lookup c with
  | some x => ['\\', x]
  | none =>
    if 0x20 ≤ c.toNat ∧ c.toNat < 0x7f then [c]
    else if c.toNat < 0x10000 then hexEscape c.toNat
    else hexEscape (0xd800 + (c.toNat - 0x10000) / 0x400) ++
      hexEscape (0xdc00 + (c.toNat - 0x10000) % 0x400)

/-- The three shapes of a code: the character itself, a short escape, or a numeric one. -/
theorem escape_cases (c : Char) :
    (escape c = [c] ∧ c ≠ '"' ∧ c ≠ '\\') ∨
      (∃ x, escape c = ['\\', x] ∧ (c, x) ∈ shortEscapes) ∨
        (escape c = hexEscape c.toNat ∧ c.toNat < 0x20) := by
  unfold escape
  cases hl : shortEscapes.lookup c with
  | some x =>
    refine Or.inr (Or.inl ⟨x, rfl, ?_⟩)
    obtain ⟨pre, post, hsplit, -⟩ := List.lookup_eq_some_iff.1 hl
    rw [hsplit]
    simp
  | none =>
    dsimp only
    split_ifs with h
    · exact Or.inr (Or.inr ⟨rfl, h⟩)
    · refine Or.inl ⟨rfl, ?_, ?_⟩ <;> rintro rfl <;> exact absurd hl (by decide)

theorem shortEscapes_inj : ∀ p ∈ shortEscapes, ∀ q ∈ shortEscapes, p.2 = q.2 → p.1 = q.1 := by
  decide

theorem shortEscapes_ne_u : ∀ p ∈ shortEscapes, p.2 ≠ 'u' := by decide

theorem escape_code : EscapeCode escape where
  start c := by
    rcases escape_cases c with ⟨h, hq, -⟩ | ⟨x, h, -⟩ | ⟨h, -⟩
    · exact ⟨c, [], h, hq⟩
    · exact ⟨_, _, h, by decide⟩
    · exact ⟨_, _, h, by decide⟩
  inj {c c' r r'} h := by
    rcases escape_cases c with ⟨hc, -, hb⟩ | ⟨x, hc, hx⟩ | ⟨hc, hn⟩ <;>
      rcases escape_cases c' with ⟨hc', -, hb'⟩ | ⟨x', hc', hx'⟩ | ⟨hc', hn'⟩ <;>
        rw [hc, hc'] at h <;> simp only [hexEscape, List.cons_append, List.nil_append] at h
    · simpa using h
    · exact absurd (List.cons.inj h).1 hb
    · exact absurd (List.cons.inj h).1 hb
    · exact absurd (List.cons.inj h).1.symm hb'
    · simp only [List.cons.injEq, true_and] at h
      exact ⟨shortEscapes_inj _ hx _ hx' h.1, h.2⟩
    · simp only [List.cons.injEq, true_and] at h
      exact absurd h.1 (shortEscapes_ne_u _ hx)
    · exact absurd (List.cons.inj h).1.symm hb'
    · simp only [List.cons.injEq, true_and] at h
      exact absurd h.1.symm (shortEscapes_ne_u _ hx')
    · simp only [List.cons.injEq, true_and] at h
      obtain ⟨hcc, hr⟩ := Digits.fixed_append_inj (by norm_num) (by norm_num) (by omega) (by omega) h
      exact ⟨Char.toNat_inj.1 hcc, hr⟩

/-- The four shapes of an ASCII code: a numeric one is a single escape or a pair, of which the first is in the
range of the surrogates. -/
theorem escapeAscii_cases (c : Char) :
    (escapeAscii c = [c] ∧ c ≠ '"' ∧ c ≠ '\\') ∨
      (∃ x, escapeAscii c = ['\\', x] ∧ (c, x) ∈ shortEscapes) ∨
        (escapeAscii c = hexEscape c.toNat ∧ c.toNat < 0x10000) ∨
          ∃ n, c.toNat = n + 0x10000 ∧ n < 0x100000 ∧
            escapeAscii c = hexEscape (0xd800 + n / 0x400) ++ hexEscape (0xdc00 + n % 0x400) := by
  unfold escapeAscii
  cases hl : shortEscapes.lookup c with
  | some x =>
    refine Or.inr (Or.inl ⟨x, rfl, ?_⟩)
    obtain ⟨pre, post, hsplit, -⟩ := List.lookup_eq_some_iff.1 hl
    rw [hsplit]
    simp
  | none =>
    dsimp only
    split_ifs with hprint hbasic
    · refine Or.inl ⟨rfl, ?_, ?_⟩ <;> rintro rfl <;> exact absurd hl (by decide)
    · exact Or.inr (Or.inr (Or.inl ⟨rfl, hbasic⟩))
    · refine Or.inr (Or.inr (Or.inr ⟨c.toNat - 0x10000, by omega, ?_, rfl⟩))
      have hvalid : c.toNat.isValidChar := c.valid
      unfold Nat.isValidChar at hvalid
      omega

theorem not_surrogate (c : Char) : c.toNat < 0xd800 ∨ 0xe000 ≤ c.toNat := by
  have hvalid : c.toNat.isValidChar := c.valid
  unfold Nat.isValidChar at hvalid
  omega

theorem hexEscape_append_inj {n m : ℕ} (hn : n < 0x10000) (hm : m < 0x10000) {r r' : List Char}
    (h : hexEscape n ++ r = hexEscape m ++ r') : n = m ∧ r = r' := by
  simp only [hexEscape, List.cons_append, List.cons.injEq, true_and] at h
  exact Digits.fixed_append_inj (by norm_num) (by norm_num) (by omega) (by omega) h

theorem escapeAscii_code : EscapeCode escapeAscii where
  start c := by
    rcases escapeAscii_cases c with ⟨h, hq, -⟩ | ⟨x, h, -⟩ | ⟨h, -⟩ | ⟨n, -, -, h⟩
    · exact ⟨c, [], h, hq⟩
    · exact ⟨_, _, h, by decide⟩
    · exact ⟨_, _, h, by decide⟩
    · exact ⟨_, _, h, by decide⟩
  inj {c c' r r'} h := by
    rcases escapeAscii_cases c with ⟨hc, -, hb⟩ | ⟨x, hc, hx⟩ | ⟨hc, hn⟩ | ⟨n, hcn, hn, hc⟩ <;>
      rcases escapeAscii_cases c' with ⟨hc', -, hb'⟩ | ⟨x', hc', hx'⟩ | ⟨hc', hn'⟩ | ⟨n', hcn', hn', hc'⟩ <;>
        rw [hc, hc'] at h
    · simpa using h
    · exact absurd (List.cons.inj h).1 hb
    · exact absurd (List.cons.inj h).1 hb
    · exact absurd (List.cons.inj h).1 hb
    · exact absurd (List.cons.inj h).1.symm hb'
    · simp only [List.cons_append, List.nil_append, List.cons.injEq, true_and] at h
      exact ⟨shortEscapes_inj _ hx _ hx' h.1, h.2⟩
    · simp only [hexEscape, List.cons_append, List.cons.injEq, true_and] at h
      exact absurd h.1 (shortEscapes_ne_u _ hx)
    · simp only [hexEscape, List.cons_append, List.cons.injEq, true_and] at h
      exact absurd h.1 (shortEscapes_ne_u _ hx)
    · exact absurd (List.cons.inj h).1.symm hb'
    · simp only [hexEscape, List.cons_append, List.cons.injEq, true_and] at h
      exact absurd h.1.symm (shortEscapes_ne_u _ hx')
    · obtain ⟨hcc, hr⟩ := hexEscape_append_inj hn hn' h
      exact ⟨Char.toNat_inj.1 hcc, hr⟩
    · -- a single escape is not the first of a pair
      rw [List.append_assoc] at h
      obtain ⟨hcc, -⟩ := hexEscape_append_inj hn (by omega) h
      have := not_surrogate c
      omega
    · exact absurd (List.cons.inj h).1.symm hb'
    · simp only [hexEscape, List.cons_append, List.cons.injEq, true_and] at h
      exact absurd h.1.symm (shortEscapes_ne_u _ hx')
    · rw [List.append_assoc] at h
      obtain ⟨hcc, -⟩ := hexEscape_append_inj (by omega) hn' h
      have := not_surrogate c'
      omega
    · rw [List.append_assoc, List.append_assoc] at h
      obtain ⟨hhigh, h⟩ := hexEscape_append_inj (by omega) (by omega) h
      obtain ⟨hlow, hr⟩ := hexEscape_append_inj (by omega) (by omega) h
      exact ⟨Char.toNat_inj.1 (by omega), hr⟩

theorem same_str {s t : String} (h : Same (.str s) (.str t)) : s = t := by
  cases h
  rfl

theorem same_arr {xs ys : List Json} (h : Same (.arr xs) (.arr ys)) : List.Forall₂ Same xs ys := by
  cases h with
  | arr hall => exact hall

/-- Arrays of one kind of value, which is read back from it. -/
theorem map_eq_of_same_arr {α β : Type*} {f : α → Json} {g : α → β} (hf : ∀ x y, Same (f x) (f y) → g x = g y)
    {xs ys : List α} (h : Same (.arr (xs.map f)) (.arr (ys.map f))) : xs.map g = ys.map g := by
  have hall := same_arr h
  rw [List.forall₂_map_left_iff, List.forall₂_map_right_iff] at hall
  rw [← List.forall₂_eq_eq_eq, List.forall₂_map_left_iff, List.forall₂_map_right_iff]
  exact hall.imp fun x y hxy => hf x y hxy

example : dumps escape (.obj [("b", .int (-3)), ("a", .arr [.null, .str "x\"y"])]) =
    "\x7b\"a\":[null,\"x\\\"y\"],\"b\":-3\x7d" := by decide

end Json
