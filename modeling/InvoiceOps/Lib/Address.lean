import Mathlib.Data.List.Basic
import Mathlib.Tactic.Common
import Mathlib.Tactic.IntervalCases

/-! Paths of addresses: components with their reserved characters written as `%` and two hexadecimal digits
(`encodeURIComponent`), the text that such a path stands for, and how a relative reference is resolved against the path
of a base. -/

namespace Address

def hexDigit (n : ℕ) : Char := Char.ofNat (if n < 10 then 48 + n else 55 + n)

def hexValue (c : Char) : Option ℕ :=
  let n := c.toNat
  if 48 ≤ n ∧ n ≤ 57 then some (n - 48)
  else if 65 ≤ n ∧ n ≤ 70 then some (n - 55)
  else if 97 ≤ n ∧ n ≤ 102 then some (n - 87)
  else none

/-- The characters a component keeps: letters, digits, and nine marks, the last of them the apostrophe. -/
def unreserved (c : Char) : Bool :=
  c.isAlphanum || decide (c ∈ ['-', '_', '.', '!', '~', '*', '(', ')', Char.ofNat 39])

def encodeByte (b : UInt8) : List Char := ['%', hexDigit (b.toNat / 16), hexDigit (b.toNat % 16)]

def encodeChar (c : Char) : List Char := if unreserved c then [c] else (String.utf8EncodeChar c).flatMap encodeByte

/-- `encodeURIComponent` -/
def encodeComponent (cs : List Char) : List Char := cs.flatMap encodeChar

/-- The bytes an encoded text stands for; a `%` without its two digits is kept. -/
def decodeBytes : List Char → List UInt8
  | '%' :: a :: b :: cs =>
    match hexValue a, hexValue b with
    | some x, some y => UInt8.ofNat (16 * x + y) :: decodeBytes cs
    | _, _ => UInt8.ofNat '%'.toNat :: decodeBytes (a :: b :: cs)
  | c :: cs => UInt8.ofNat c.toNat :: decodeBytes cs
  | [] => []

/-- The text an encoded one stands for, when its bytes are UTF-8. -/
def decode (cs : List Char) : Option (List Char) := ((decodeBytes cs).toByteArray.utf8Decode?).map Array.toList

theorem hexValue_hexDigit {n : ℕ} (h : n < 16) : hexValue (hexDigit n) = some n := by
  interval_cases n <;> decide

theorem unreserved_bounds {c : Char} (h : unreserved c = true) : c.toNat < 128 ∧ c ≠ '%' ∧ c ≠ '/' := by
  unfold unreserved at h
  rw [Bool.or_eq_true, decide_eq_true_iff] at h
  obtain h | h := h
  · have hcode : c.isAlphanum = (decide (65 ≤ c.val ∧ c.val ≤ 90) || decide (97 ≤ c.val) && decide (c.val ≤ 122) ||
        decide (48 ≤ c.val) && decide (c.val ≤ 57)) := rfl
    simp only [hcode, Bool.or_eq_true, Bool.and_eq_true, decide_eq_true_iff, UInt32.le_iff_toNat_le] at h
    refine ⟨?_, ?_, ?_⟩
    · change ((65 ≤ c.toNat ∧ c.toNat ≤ 90) ∨ (97 ≤ c.toNat ∧ c.toNat ≤ 122)) ∨ (48 ≤ c.toNat ∧ c.toNat ≤ 57) at h
      omega
    · rintro rfl
      revert h
      decide
    · rintro rfl
      revert h
      decide
  · revert h
    simp only [List.mem_cons, List.not_mem_nil, or_false]
    rintro (rfl | rfl | rfl | rfl | rfl | rfl | rfl | rfl | rfl) <;> decide

theorem decodeBytes_cons {c : Char} (hc : c ≠ '%') (cs : List Char) :
    decodeBytes (c :: cs) = UInt8.ofNat c.toNat :: decodeBytes cs := by
  rw [decodeBytes.eq_def]
  split
  · rename_i heq
    exact absurd (List.cons.inj heq).1 hc
  · rename_i heq
    obtain ⟨rfl, rfl⟩ := List.cons.inj heq
    rfl
  · rename_i heq
    cases heq

theorem decodeBytes_encodeByte (b : UInt8) (cs : List Char) :
    decodeBytes (encodeByte b ++ cs) = b :: decodeBytes cs := by
  have hb : b.toNat < 256 := UInt8.toNat_lt b
  rw [encodeByte, List.cons_append, List.cons_append, List.cons_append, List.nil_append, decodeBytes,
    hexValue_hexDigit (by omega), hexValue_hexDigit (by omega)]
  simp only
  rw [Nat.div_add_mod, UInt8.ofNat_toNat]

theorem decodeBytes_encodeBytes (bs : List UInt8) (cs : List Char) :
    decodeBytes (bs.flatMap encodeByte ++ cs) = bs ++ decodeBytes cs := by
  induction bs with
  | nil => rfl
  | cons b bs ih => rw [List.flatMap_cons, List.append_assoc, decodeBytes_encodeByte, ih, List.cons_append]

theorem decodeBytes_encodeChar (c : Char) (cs : List Char) :
    decodeBytes (encodeChar c ++ cs) = String.utf8EncodeChar c ++ decodeBytes cs := by
  unfold encodeChar
  split_ifs with hc
  · obtain ⟨hlt, hpercent, -⟩ := unreserved_bounds hc
    have hbyte : String.utf8EncodeChar c = [UInt8.ofNat c.toNat] := by
      have hle : c.val.toNat ≤ 127 := Nat.le_of_lt_succ hlt
      exact if_pos hle
    rw [hbyte, List.singleton_append, List.singleton_append, decodeBytes_cons hpercent]
  · exact decodeBytes_encodeBytes _ _

theorem decodeBytes_encodeComponent (s cs : List Char) :
    decodeBytes (encodeComponent s ++ cs) = s.flatMap String.utf8EncodeChar ++ decodeBytes cs := by
  induction s with
  | nil => rfl
  | cons c s ih =>
    change decodeBytes (encodeChar c ++ encodeComponent s ++ cs) = _
    rw [List.append_assoc, decodeBytes_encodeChar, ih, List.flatMap_cons, List.append_assoc]

/-- The bytes of an encoded path are those of the plain one. -/
theorem decodeBytes_path (segments : List (List Char)) :
    decodeBytes (['/'].intercalate (segments.map encodeComponent)) =
      (['/'].intercalate segments).flatMap String.utf8EncodeChar := by
  induction segments with
  | nil => rfl
  | cons s rest ih =>
    cases rest with
    | nil =>
      have h := decodeBytes_encodeComponent s []
      simpa [decodeBytes] using h
    | cons s' rest =>
      have hslash : ∀ cs, decodeBytes ('/' :: cs) = String.utf8EncodeChar '/' ++ decodeBytes cs := fun cs =>
        decodeBytes_cons (by decide) cs
      rw [List.map_cons, List.map_cons, List.intercalate_cons_cons, List.append_assoc, decodeBytes_encodeComponent,
        List.singleton_append, hslash, ← List.map_cons, ih, List.intercalate_cons_cons, List.flatMap_append,
        List.flatMap_append, List.flatMap_singleton, List.append_assoc]

theorem decode_of_bytes {cs s : List Char} (h : decodeBytes cs = s.flatMap String.utf8EncodeChar) : decode cs = some s := by
  rw [decode, h]
  change (s.utf8Encode.utf8Decode?).map Array.toList = some s
  rw [List.utf8Decode?_utf8Encode]
  rfl

/-- An encoded path stands for the path of its components. -/
theorem decode_path (segments : List (List Char)) :
    decode (['/'].intercalate (segments.map encodeComponent)) = some (['/'].intercalate segments) :=
  decode_of_bytes (decodeBytes_path segments)

theorem decode_encodeComponent (s : List Char) : decode (encodeComponent s) = some s := by
  have h := decodeBytes_encodeComponent s []
  rw [List.append_nil] at h
  exact decode_of_bytes (h.trans (List.append_nil _))

theorem slash_notMem_encodeByte (b : UInt8) : '/' ∉ encodeByte b := by
  have hdigit : ∀ n < 16, '/' ≠ hexDigit n := by decide
  have hb : b.toNat < 256 := UInt8.toNat_lt b
  simp only [encodeByte, List.mem_cons, List.not_mem_nil, or_false, not_or]
  exact ⟨by decide, hdigit _ (by omega), hdigit _ (by omega)⟩

theorem slash_notMem_encodeComponent (s : List Char) : '/' ∉ encodeComponent s := by
  intro h
  obtain ⟨c, -, hc⟩ := List.mem_flatMap.1 h
  unfold encodeChar at hc
  split_ifs at hc with hu
  · obtain rfl := List.mem_singleton.1 hc
    exact (unreserved_bounds hu).2.2 rfl
  · obtain ⟨b, -, hb⟩ := List.mem_flatMap.1 hc
    exact slash_notMem_encodeByte b hb

theorem encodeComponent_ne_nil {s : List Char} (h : s ≠ []) : encodeComponent s ≠ [] := by
  intro hnil
  have hdecode := decode_encodeComponent s
  rw [hnil] at hdecode
  exact h (Option.some.inj (hdecode.symm.trans (decode_encodeComponent [])))

/-- Segments that stand for the directory itself, and for the one above. -/
def singleDots : List (List Char) := [".", "%2e", "%2E"].map String.toList

def doubleDots : List (List Char) :=
  ["..", ".%2e", ".%2E", "%2e.", "%2E.", "%2e%2e", "%2e%2E", "%2E%2e", "%2E%2E"].map String.toList

/-- The segments of a path, one after the other; a last one of dots leaves an empty one. -/
def walk : List (List Char) → List (List Char) → List (List Char)
  | path, [] => path
  | path, s :: rest =>
    let last := if rest = [] then [[]] else []
    if s ∈ doubleDots then walk (path.dropLast ++ last) rest
    else if s ∈ singleDots then walk (path ++ last) rest
    else walk (path ++ [s]) rest

/-- Where a reference leads: to another host, or to a path on the host of the base. -/
inductive Target
  | elsewhere
  | path (segments : List (List Char))
deriving DecidableEq

/-- A reference without a scheme, a query and a fragment, for a base whose path is these segments and a slash. -/
def resolve (base : List (List Char)) : List Char → Target
  | [] => .path (base ++ [[]])
  | '/' :: '/' :: _ => .elsewhere
  | '/' :: cs => .path (walk [] (cs.splitOn '/'))
  | cs => .path (walk base (cs.splitOn '/'))

theorem dots_of_mem {s : List Char} (h : encodeComponent s ∈ doubleDots) : s = ['.', '.'] := by
  have hall : ∀ t ∈ doubleDots, decodeBytes t = decodeBytes ['.', '.'] := by decide +kernel
  have hs := decode_encodeComponent s
  rw [decode, hall _ h] at hs
  exact Option.some.inj (hs.symm.trans (decode_encodeComponent ['.', '.']))

theorem dot_of_mem {s : List Char} (h : encodeComponent s ∈ singleDots) : s = ['.'] := by
  have hall : ∀ t ∈ singleDots, decodeBytes t = decodeBytes ['.'] := by decide +kernel
  have hs := decode_encodeComponent s
  rw [decode, hall _ h] at hs
  exact Option.some.inj (hs.symm.trans (decode_encodeComponent ['.']))

/-- The segments that are left of a path: those that are no dot, and an empty one after a last dot. -/
def visited (path : List (List Char)) : List (List Char) :=
  path.filter (· ≠ ['.']) ++ if path.getLast? = some ['.'] then [[]] else []

theorem visited_ne_nil {path : List (List Char)} (h : path ≠ []) : visited path ≠ [] := by
  intro hnil
  obtain ⟨hfilter, hlast⟩ := List.append_eq_nil_iff.1 hnil
  have hdots := List.filter_eq_nil_iff.1 hfilter _ (List.getLast_mem h)
  have hdot : path.getLast h = ['.'] := by simpa using hdots
  rw [List.getLast?_eq_some_getLast h, hdot, if_pos rfl] at hlast
  cases hlast

theorem walk_encoded (base : List (List Char)) {path : List (List Char)} (h : ∀ s ∈ path, s ≠ ['.', '.']) :
    walk base (path.map encodeComponent) = base ++ (visited path).map encodeComponent := by
  induction path generalizing base with
  | nil => exact (List.append_nil base).symm
  | cons s rest ih =>
    have hs : encodeComponent s ∉ doubleDots := fun hdots => h s List.mem_cons_self (dots_of_mem hdots)
    have hrest : ∀ s ∈ rest, s ≠ ['.', '.'] := fun s hs => h s (List.mem_cons_of_mem _ hs)
    rw [List.map_cons, walk, if_neg hs]
    by_cases hdot : s = ['.']
    · subst hdot
      rw [if_pos (by decide), ih _ hrest]
      cases rest with
      | nil => simp [visited, encodeComponent]
      | cons s' rest => simp [visited]
    · rw [if_neg fun hmem => hdot (dot_of_mem hmem), ih _ hrest]
      cases rest with
      | nil => simp [visited, hdot]
      | cons s' rest => simp [visited, hdot]

/-- A reference made of encoded components stays below its base, unless one of them is empty or asks for the directory above. -/
theorem resolve_encoded (base : List (List Char)) {path : List (List Char)} (hne : path ≠ [])
    (h : ∀ s ∈ path, s ≠ [] ∧ s ≠ ['.', '.']) :
    resolve base (['/'].intercalate (path.map encodeComponent)) = .path (base ++ (visited path).map encodeComponent) := by
  have hslash : ∀ s ∈ path.map encodeComponent, '/' ∉ s := by
    intro s hs
    obtain ⟨t, -, rfl⟩ := List.mem_map.1 hs
    exact slash_notMem_encodeComponent t
  have hsplit := List.splitOn_intercalate '/' hslash (by simpa using hne)
  obtain ⟨s, rest, rfl⟩ := List.exists_cons_of_ne_nil hne
  obtain ⟨c, cs, hhead⟩ := List.exists_cons_of_ne_nil (encodeComponent_ne_nil (h s List.mem_cons_self).1)
  have hc : c ≠ '/' := by
    rintro rfl
    exact slash_notMem_encodeComponent s (hhead ▸ List.mem_cons_self)
  have hreference : ∃ cs', ['/'].intercalate ((s :: rest).map encodeComponent) = c :: cs' := by
    cases rest with
    | nil => exact ⟨cs, by simp [hhead]⟩
    | cons s' rest => exact ⟨_, by rw [List.map_cons, List.map_cons, List.intercalate_cons_cons, hhead]; rfl⟩
  obtain ⟨cs', hcs⟩ := hreference
  have hresolve : resolve base (c :: cs') = .path (walk base ((c :: cs').splitOn '/')) := by
    rw [resolve.eq_def]
    split
    · rename_i heq
      cases heq
    · rename_i heq
      exact absurd (List.cons.inj heq).1 hc
    · rename_i heq
      exact absurd (List.cons.inj heq).1 hc
    · rfl
  rw [hcs, hresolve, ← hcs, hsplit, walk_encoded base fun s hs => (h s hs).2]

end Address
