import InvoiceOps.Lib.Base64
import InvoiceOps.Lib.IsoFormat
import InvoiceOps.Lib.Keyset
import InvoiceOps.Review.Service

/-! The review queue (`list_cases` of `review/service.py`): filters, the join with the triggers, pages and the
cursors between them. The join gives a case one row for each trigger that meets the trigger filters, so that
the pages list a case twice unless its rows are cut at the end of a page. -/

namespace Uuid

def hexValue (c : Char) : Option ℕ :=
  if '0' ≤ c ∧ c ≤ '9' then some (c.toNat - 48)
  else if 'a' ≤ c ∧ c ≤ 'f' then some (c.toNat - 87)
  else if 'A' ≤ c ∧ c ≤ 'F' then some (c.toNat - 55)
  else none

def readHex (acc : ℕ) : List Char → Option ℕ
  | [] => some acc
  | c :: cs => (hexValue c).bind fun d => readHex (acc * 16 + d) cs

/-- `uuid.UUID`, of a text of hexadecimal digits and hyphens. -/
def ofText (cs : List Char) : Option Uuid :=
  let hex := cs.filter (· ≠ '-')
  if hex.length = 32 then (readHex 0 hex).map ofNat else none

theorem readHex_fixed {acc w n : ℕ} {r : List Char} (hn : n < 16 ^ w) :
    readHex acc (Digits.fixed 16 w n ++ r) = readHex (acc * 16 ^ w + n) r := by
  have hdigit : ∀ d < 16, hexValue (Nat.digitChar d) = some d := by decide
  induction w generalizing n r with
  | zero =>
    have h0 : n = 0 := by simpa using hn
    simp [h0, Digits.fixed]
  | succ w ih =>
    have hdiv : n / 16 < 16 ^ w := by
      rw [Nat.div_lt_iff_lt_mul (by norm_num), ← pow_succ]
      exact hn
    rw [Digits.fixed, List.append_assoc, ih hdiv, List.singleton_append, readHex, hdigit _ (Nat.mod_lt n (by norm_num)),
      Option.bind_some]
    have hvalue : (acc * 16 ^ w + n / 16) * 16 + n % 16 = acc * 16 ^ (w + 1) + n := by
      rw [pow_succ, add_mul, mul_assoc]
      omega
    rw [hvalue]

theorem not_mem_fixed {c : Char} (hc : ∀ d < 16, Nat.digitChar d ≠ c) (w n : ℕ) : c ∉ Digits.fixed 16 w n := by
  induction w generalizing n with
  | zero => simp [Digits.fixed]
  | succ w ih =>
    intro hmem
    rcases List.mem_append.1 hmem with hmem | hmem
    · exact ih _ hmem
    · exact hc _ (Nat.mod_lt n (by norm_num)) (List.mem_singleton.1 hmem).symm

theorem filter_fixed (w n : ℕ) : (Digits.fixed 16 w n).filter (fun c => decide (c ≠ '-')) = Digits.fixed 16 w n := by
  refine List.filter_eq_self.2 fun c hc => decide_eq_true ?_
  rintro rfl
  exact not_mem_fixed (by decide) w n hc

theorem ofText_chars (u : Uuid) : ofText u.chars = some u := by
  obtain ⟨⟨n, hn⟩⟩ := u
  have hhex : (chars ⟨⟨n, hn⟩⟩).filter (fun c => decide (c ≠ '-')) = Digits.fixed 16 8 (n / 16 ^ 24) ++
      (Digits.fixed 16 4 (n / 16 ^ 20 % 16 ^ 4) ++ (Digits.fixed 16 4 (n / 16 ^ 16 % 16 ^ 4) ++
        (Digits.fixed 16 4 (n / 16 ^ 12 % 16 ^ 4) ++ (Digits.fixed 16 12 (n % 16 ^ 12) ++ [])))) := by
    simp only [chars, List.filter_append, List.filter_cons, ne_eq, not_true, decide_false, Bool.false_eq_true, if_false,
      List.append_nil]
    rw [filter_fixed, filter_fixed, filter_fixed, filter_fixed, filter_fixed]
  unfold ofText
  simp only [hhex]
  rw [readHex_fixed (by omega), readHex_fixed (Nat.mod_lt _ (by norm_num)), readHex_fixed (Nat.mod_lt _ (by norm_num)),
    readHex_fixed (Nat.mod_lt _ (by norm_num)), readHex_fixed (Nat.mod_lt _ (by norm_num)), readHex,
    if_pos (by simp), Option.map_some]
  have hvalue : ((((0 * 16 ^ 8 + n / 16 ^ 24) * 16 ^ 4 + n / 16 ^ 20 % 16 ^ 4) * 16 ^ 4 + n / 16 ^ 16 % 16 ^ 4) * 16 ^ 4 +
      n / 16 ^ 12 % 16 ^ 4) * 16 ^ 12 + n % 16 ^ 12 = n := by omega
  rw [hvalue]
  exact congrArg (fun v => some (Uuid.mk v)) (Fin.ext (Nat.mod_eq_of_lt hn))

end Uuid

namespace InvoiceOps

open Calendar

/-- The parts before and after the last separator. -/
def rsplit (sep : Char) (cs : List Char) : Option (List Char × List Char) :=
  let tail := cs.reverse.takeWhile (· ≠ sep)
  if tail.length < cs.length then some ((cs.reverse.drop (tail.length + 1)).reverse, tail.reverse) else none

theorem rsplit_append {sep : Char} {a b : List Char} (hb : sep ∉ b) : rsplit sep (a ++ sep :: b) = some (a, b) := by
  have htail : (a ++ sep :: b).reverse.takeWhile (fun c => decide (c ≠ sep)) = b.reverse := by
    rw [List.reverse_append, List.reverse_cons, List.append_assoc,
      List.takeWhile_append_of_pos fun c hc => decide_eq_true (ne_of_mem_of_not_mem (List.mem_reverse.1 hc) hb)]
    simp
  unfold rsplit
  simp only [htail]
  rw [if_pos (by simp; omega)]
  simp [List.drop_append]

def cursorText (c : ReviewCase) : String := String.ofList (c.openedAt.isoformat ++ '|' :: c.id.chars)

/-- `_encode_cursor` -/
def encodeCursor (c : ReviewCase) : String :=
  String.ofList (Base64.unpad (Base64.encode (cursorText c).toByteArray.data.toList))

/-- `_decode_cursor`, with nothing for an invalid cursor. -/
def decodeCursor (cursor : String) : Option (DateTime × Uuid) :=
  (Base64.decode (Base64.pad cursor.toList)).bind fun bytes =>
    (String.fromUTF8? ⟨bytes.toArray⟩).bind fun raw =>
      (rsplit '|' raw.toList).bind fun parts =>
        (DateTime.fromisoformat parts.1).bind fun openedAt =>
          (Uuid.ofText parts.2).map fun id => (openedAt, id)

theorem fromUTF8?_toByteArray (s : String) : String.fromUTF8? s.toByteArray = some s := by
  unfold String.fromUTF8?
  rw [dif_pos s.isValidUTF8]
  rfl

/-- A cursor gives back the time and the id of its case. -/
theorem decodeCursor_encodeCursor {c : ReviewCase} (h : c.openedAt.OnClock) :
    decodeCursor (encodeCursor c) = some (c.openedAt, c.id) := by
  have hbar : '|' ∉ c.id.chars := by
    have hhex : ∀ w n, '|' ∉ Digits.fixed 16 w n := Uuid.not_mem_fixed (by decide)
    simp [Uuid.chars, hhex]
  unfold decodeCursor encodeCursor
  rw [String.toList_ofList, Base64.pad_unpad_encode, Base64.decode_encode, Option.bind_some, Array.toArray_toList,
    fromUTF8?_toByteArray, Option.bind_some, cursorText, String.toList_ofList, rsplit_append hbar, Option.bind_some,
    DateTime.fromisoformat_isoformat h, Option.bind_some, Uuid.ofText_chars, Option.map_some]

structure QueueFilter where
  status : Option ReviewStatus
  assignee : Option String
  reasonCode : Option ReasonCode
  triggerType : Option TriggerType
  triggerCode : Option String
  createdBefore : Option DateTime
  createdAfter : Option DateTime

structure ReviewCasePage where
  items : List ReviewCase
  nextCursor : Option String

/-- The conditions on the case itself. -/
def QueueFilter.selects (f : QueueFilter) (c : ReviewCase) : Bool :=
  f.status.all (c.status = ·) && f.assignee.all (c.assignedReviewerId = some ·) &&
    f.createdBefore.all (c.openedAt.instant < ·.instant) && f.createdAfter.all (·.instant ≤ c.openedAt.instant)

/-- The type and the code a trigger must have, or nothing when the reason code contradicts them. -/
def QueueFilter.effective (f : QueueFilter) : Option (Option TriggerType × Option String) :=
  match f.reasonCode with
  | none => some (f.triggerType, f.triggerCode)
  | some code =>
    if f.triggerType.any (· ≠ .matchReason) then none
    else if f.triggerCode.any (· ≠ code.value) then none
    else some (some .matchReason, some code.value)

/-- One row for each case, or for each of its triggers with the type and the code. -/
def joinTriggers (triggers : List ReviewCaseTrigger) (type : Option TriggerType) (code : Option String)
    (cases : List ReviewCase) : List ReviewCase :=
  if type.isSome || code.isSome then
    cases.flatMap fun c =>
      (triggers.filter fun t =>
        decide (t.reviewCaseId = c.id) && type.all (t.trigger.type = ·) && code.all (t.trigger.code = ·)).map fun _ => c
  else cases

def ReviewCase.queueKey (c : ReviewCase) : Lex (ℕ × Fin (2 ^ 128)) := toLex (c.openedAt.instant, c.id.val)

/-- The condition of a cursor. -/
def afterCursor (cursor : Option (DateTime × Uuid)) (c : ReviewCase) : Bool :=
  cursor.all fun k => c.openedAt.instant < k.1.instant || (c.openedAt.instant = k.1.instant && c.id.val < k.2.val)

def readCursor : Option String → Option (Option (DateTime × Uuid))
  | none => some none
  | some cursor => (decodeCursor cursor).map some

/-- The rows of the statement, in decreasing order. -/
def statementRows (store : ReviewStore) (f : QueueFilter) (cursor : Option (DateTime × Uuid))
    (type : Option TriggerType) (code : Option String) : List ReviewCase :=
  (joinTriggers store.triggers type code (store.cases.filter fun c => f.selects c && afterCursor cursor c)).insertionSort
    fun c d => c.queueKey ≥ d.queueKey

/-- `list_cases`, with nothing for an invalid cursor. -/
def listCases (store : ReviewStore) (f : QueueFilter) (cursor : Option String) (limit : ℕ) : Option ReviewCasePage :=
  (readCursor cursor).bind fun after =>
    match f.effective with
    | none => some ⟨[], none⟩
    | some (type, code) =>
      let candidates := (statementRows store f after type code).take (limit + 1)
      let page := candidates.take limit
      some ⟨page, if limit < candidates.length then page.getLast?.map encodeCursor else none⟩

/-- What a client has when it follows the cursors from a page to the last one. -/
inductive Following (store : ReviewStore) (f : QueueFilter) (limit : ℕ) : Option String → List ReviewCase → Prop
  | last {cursor : Option String} {items : List ReviewCase} : listCases store f cursor limit = some ⟨items, none⟩ →
      Following store f limit cursor items
  | next {cursor : Option String} {next : String} {items rest : List ReviewCase} :
      listCases store f cursor limit = some ⟨items, some next⟩ → Following store f limit (some next) rest →
      Following store f limit cursor (items ++ rest)

def QueueFilter.OnTriggers (f : QueueFilter) : Prop :=
  f.reasonCode.isSome ∨ f.triggerType.isSome ∨ f.triggerCode.isSome

/-- All conditions on a trigger, met by one trigger. -/
def QueueFilter.Admits (f : QueueFilter) (t : Trigger) : Prop :=
  (∀ code ∈ f.reasonCode, t.type = .matchReason ∧ t.code = code.value) ∧
    (∀ type ∈ f.triggerType, t.type = type) ∧ ∀ code ∈ f.triggerCode, t.code = code

instance (f : QueueFilter) : Decidable f.OnTriggers := inferInstanceAs (Decidable (_ ∨ _))

instance (f : QueueFilter) (t : Trigger) : Decidable (f.Admits t) := inferInstanceAs (Decidable (_ ∧ _))

/-- The triggers of a case that meet the conditions on triggers. -/
def matchingTriggers (store : ReviewStore) (f : QueueFilter) (c : ReviewCase) : List ReviewCaseTrigger :=
  store.triggers.filter fun t => t.reviewCaseId = c.id ∧ f.Admits t.trigger

def Satisfies (store : ReviewStore) (f : QueueFilter) (c : ReviewCase) : Prop :=
  f.selects c = true ∧ (f.OnTriggers → matchingTriggers store f c ≠ [])

instance (store : ReviewStore) (f : QueueFilter) (c : ReviewCase) : Decidable (Satisfies store f c) :=
  inferInstanceAs (Decidable (_ ∧ _))

/-- The cases that satisfy the filters, in decreasing order. -/
def queue (store : ReviewStore) (f : QueueFilter) : List ReviewCase :=
  (store.cases.filter fun c => Satisfies store f c).insertionSort fun c d => c.queueKey ≥ d.queueKey

/-- The rows a case has in the statement. -/
def rowCount (store : ReviewStore) (f : QueueFilter) (c : ReviewCase) : ℕ :=
  if f.OnTriggers then (matchingTriggers store f c).length else 1

/-- Following the cursors lists what the filters ask for, each case once and in order. -/
def ListsQueue (store : ReviewStore) (f : QueueFilter) (limit : ℕ) : Prop :=
  ∃ items, Following store f limit none items ∧ items.Pairwise (fun c d => d.queueKey < c.queueKey) ∧
    ∀ c, c ∈ items ↔ c ∈ store.cases ∧ Satisfies store f c

def CursorsRead (store : ReviewStore) : Prop :=
  ∀ c ∈ store.cases, decodeCursor (encodeCursor c) = some (c.openedAt, c.id)

/-- The tables of the queue: the primary key of the cases, and times of opening that are timestamps. -/
structure QueueTables where
  store : ReviewStore
  case_ids : (store.cases.map (·.id)).Nodup
  opened : ∀ c ∈ store.cases, c.openedAt.OnClock

section
variable {store : ReviewStore} {f : QueueFilter} {limit : ℕ}

/-- The effective type and code say what the trigger filters say. -/
theorem effective_some {type : Option TriggerType} {code : Option String} (h : f.effective = some (type, code)) :
    (f.OnTriggers ↔ (type.isSome || code.isSome) = true) ∧
      ∀ t, f.Admits t ↔ (type.all (t.type = ·) && code.all (t.code = ·)) = true := by
  unfold QueueFilter.effective at h
  unfold QueueFilter.OnTriggers QueueFilter.Admits
  cases hreason : f.reasonCode with
  | none =>
    simp only [hreason] at h
    obtain ⟨rfl, rfl⟩ := Prod.mk.inj (Option.some.inj h)
    refine ⟨by simp, fun t => ?_⟩
    cases f.triggerType <;> cases f.triggerCode <;> simp
  | some reason =>
    simp only [hreason] at h
    split_ifs at h with htype hcode
    obtain ⟨rfl, rfl⟩ := Prod.mk.inj (Option.some.inj h)
    have htype' : ∀ type ∈ f.triggerType, type = .matchReason := by
      intro type hmem
      rw [Option.mem_def.1 hmem] at htype
      simpa using htype
    have hcode' : ∀ code ∈ f.triggerCode, code = reason.value := by
      intro code hmem
      rw [Option.mem_def.1 hmem] at hcode
      simpa using hcode
    refine ⟨by simp, fun t => ?_⟩
    simp only [Option.all_some, Bool.and_eq_true, decide_eq_true_eq, Option.mem_def, Option.some.injEq, forall_eq']
    constructor
    · intro hadmits
      exact hadmits.1
    · intro hadmits
      exact ⟨hadmits, fun type hmem => (htype' type hmem).symm ▸ hadmits.1, fun code hmem => (hcode' code hmem).symm ▸ hadmits.2⟩

theorem effective_none (h : f.effective = none) : f.OnTriggers ∧ ∀ t, ¬f.Admits t := by
  unfold QueueFilter.effective at h
  unfold QueueFilter.OnTriggers QueueFilter.Admits
  cases hreason : f.reasonCode with
  | none => simp [hreason] at h
  | some reason =>
    simp only [hreason] at h
    refine ⟨by simp, ?_⟩
    rintro t ⟨hmatch, htype', hcode'⟩
    obtain ⟨htype, hcode⟩ := hmatch reason rfl
    split_ifs at h with hother hcodes
    · obtain ⟨type, hmem, hne⟩ := (Option.any_eq_true _ _).1 hother
      exact absurd ((htype' type hmem).symm.trans htype) (by simpa using hne)
    · obtain ⟨code, hmem, hne⟩ := (Option.any_eq_true _ _).1 hcodes
      exact absurd ((hcode' code hmem).symm.trans hcode) (by simpa using hne)

/-- The join gives a case as many rows as it has matching triggers. -/
theorem joinTriggers_eq {type : Option TriggerType} {code : Option String} (h : f.effective = some (type, code))
    (selected : List ReviewCase) :
    joinTriggers store.triggers type code selected = Keyset.rows (rowCount store f) selected := by
  obtain ⟨hon, hadmits⟩ := effective_some h
  unfold joinTriggers Keyset.rows rowCount
  by_cases htriggers : f.OnTriggers
  · simp only [if_pos htriggers, if_pos (hon.1 htriggers)]
    congr 1
    funext c
    rw [List.map_const', matchingTriggers]
    congr 2
    refine List.filter_congr fun t _ => ?_
    rw [Bool.eq_iff_iff, decide_eq_true_eq, hadmits t.trigger]
    simp [and_assoc]
  · rw [if_neg fun hsome => htriggers (hon.2 hsome)]
    simp [if_neg htriggers]

theorem rowCount_pos {c : ReviewCase} (h : Satisfies store f c) : 1 ≤ rowCount store f c := by
  unfold rowCount
  split_ifs with htriggers
  · exact List.length_pos_iff.2 (h.2 htriggers)
  · exact le_rfl

theorem rowCount_eq_zero {c : ReviewCase} (hselects : f.selects c = true) (h : ¬Satisfies store f c) :
    rowCount store f c = 0 := by
  unfold rowCount
  split_ifs with htriggers
  · by_contra hne
    exact h ⟨hselects, fun _ hnil => hne (by rw [hnil]; rfl)⟩
  · exact absurd ⟨hselects, fun hon => absurd hon htriggers⟩ h

theorem queueKey_inj {c d : ReviewCase} (h : c.queueKey = d.queueKey) : c.id = d.id := by
  have hval : c.id.val = d.id.val := congrArg (fun k => (ofLex k).2) h
  exact congrArg Uuid.mk hval

theorem afterCursor_key (c d : ReviewCase) :
    afterCursor (some (d.openedAt, d.id)) c = decide (c.queueKey < d.queueKey) := by
  rw [Bool.eq_iff_iff, decide_eq_true_eq]
  simp [afterCursor, ReviewCase.queueKey, Prod.Lex.toLex_lt_toLex]

/-- The queue is in strictly decreasing order, since no two cases have one id. -/
theorem pairwise_queue (hids : (store.cases.map (·.id)).Nodup) :
    (queue store f).Pairwise fun c d => d.queueKey < c.queueKey := by
  have htotal : Std.Total fun c d : ReviewCase => c.queueKey ≥ d.queueKey := ⟨fun c d => le_total d.queueKey c.queueKey⟩
  have htrans : IsTrans ReviewCase fun c d => c.queueKey ≥ d.queueKey := ⟨fun _ _ _ h h' => le_trans h' h⟩
  have hperm := List.perm_insertionSort (fun c d : ReviewCase => c.queueKey ≥ d.queueKey)
    (store.cases.filter fun c => Satisfies store f c)
  have hsorted := List.pairwise_insertionSort (fun c d : ReviewCase => c.queueKey ≥ d.queueKey)
    (store.cases.filter fun c => Satisfies store f c)
  have hdistinct : (queue store f).Pairwise fun c d => c.id ≠ d.id := by
    rw [← List.pairwise_map]
    exact ((hperm.map (·.id)).nodup_iff).2 (hids.sublist (List.filter_sublist.map _))
  refine (hsorted.and hdistinct).imp ?_
  intro c d hcd
  exact lt_of_le_of_ne hcd.1 fun heq => hcd.2 (queueKey_inj heq).symm

theorem mem_queue {c : ReviewCase} : c ∈ queue store f ↔ c ∈ store.cases ∧ Satisfies store f c := by
  simp [queue, List.mem_insertionSort]

theorem statementRows_eq {type : Option TriggerType} {code : Option String} (hids : (store.cases.map (·.id)).Nodup)
    (h : f.effective = some (type, code)) (cursor : Option (DateTime × Uuid)) :
    statementRows store f cursor type code =
      Keyset.rows (rowCount store f) ((queue store f).filter (afterCursor cursor)) := by
  have htotal : Std.Total fun c d : ReviewCase => c.queueKey ≥ d.queueKey := ⟨fun c d => le_total d.queueKey c.queueKey⟩
  have htrans : IsTrans ReviewCase fun c d => c.queueKey ≥ d.queueKey := ⟨fun _ _ _ h h' => le_trans h' h⟩
  have hselected : Keyset.rows (rowCount store f) (store.cases.filter fun c => f.selects c && afterCursor cursor c) =
      Keyset.rows (rowCount store f) ((store.cases.filter fun c => Satisfies store f c).filter (afterCursor cursor)) := by
    have hfilter : (store.cases.filter fun c => Satisfies store f c).filter (afterCursor cursor) =
        (store.cases.filter fun c => f.selects c && afterCursor cursor c).filter fun c => Satisfies store f c := by
      rw [List.filter_filter, List.filter_filter]
      refine List.filter_congr fun c _ => ?_
      rw [Bool.eq_iff_iff]
      simp only [Bool.and_eq_true, decide_eq_true_eq]
      exact ⟨fun hc => ⟨hc.2, hc.2.1, hc.1⟩, fun hc => ⟨hc.2.2, hc.1⟩⟩
    rw [hfilter]
    refine (Lists.flatMap_filter_of_nil fun c hc hnot => ?_).symm
    have hselects : f.selects c = true := (Bool.and_eq_true _ _ ▸ (List.mem_filter.1 hc).2).1
    rw [rowCount_eq_zero hselects (of_decide_eq_false hnot), List.replicate_zero]
  have hqueue := List.perm_insertionSort (fun c d : ReviewCase => c.queueKey ≥ d.queueKey)
    (store.cases.filter fun c => Satisfies store f c)
  unfold statementRows
  rw [joinTriggers_eq h, hselected]
  refine List.Perm.eq_of_pairwise ?_ (List.pairwise_insertionSort _ _)
    (Keyset.pairwise_rows ((pairwise_queue hids).filter _))
    ((List.perm_insertionSort _ _).trans ((hqueue.symm.filter _).flatMap_right _))
  intro c d hc hd hle hge
  have hcs : c ∈ store.cases :=
    List.mem_of_mem_filter (List.mem_of_mem_filter (Keyset.mem_of_mem_rows ((List.mem_insertionSort _).1 hc)))
  have hds : d ∈ store.cases := (mem_queue.1 (List.mem_of_mem_filter (Keyset.mem_of_mem_rows hd))).1
  exact List.inj_on_of_nodup_map hids hcs hds (queueKey_inj (le_antisymm hge hle))

/-- A page is the first rows below the cursor, and its own cursor is the last of them when there are more. -/
theorem listCases_eq (hids : (store.cases.map (·.id)).Nodup) {cursor : Option String}
    {after : Option (DateTime × Uuid)} (hcursor : readCursor cursor = some after) {rows : List ReviewCase}
    (hrows : rows = Keyset.rows (rowCount store f) ((queue store f).filter (afterCursor after))) :
    listCases store f cursor limit = some ⟨rows.take limit,
      if limit < rows.length then (rows.take limit).getLast?.map encodeCursor else none⟩ := by
  unfold listCases
  rw [hcursor, Option.bind_some]
  cases heffective : f.effective with
  | none =>
    obtain ⟨hon, hadmits⟩ := effective_none heffective
    have hnone : queue store f = [] := by
      refine List.eq_nil_iff_forall_not_mem.2 fun c hc => (mem_queue.1 hc).2.2 hon ?_
      exact List.filter_eq_nil_iff.2 fun t _ => by simp [hadmits]
    obtain rfl : rows = [] := by rw [hrows, hnone]; rfl
    simp
  | some effective =>
    obtain ⟨type, code⟩ := effective
    have hlength : limit < (rows.take (limit + 1)).length ↔ limit < rows.length := by
      rw [List.length_take]
      omega
    simp only [statementRows_eq hids heffective, ← hrows, hlength, List.take_take, min_eq_left (Nat.le_succ limit)]

end

section
variable {q : QueueTables} {f : QueueFilter} {limit : ℕ}

theorem readCursor_encode {c : ReviewCase} (hc : c ∈ q.store.cases) :
    readCursor (some (encodeCursor c)) = some (some (c.openedAt, c.id)) := by
  rw [readCursor, decodeCursor_encodeCursor (q.opened c hc)]
  rfl

/-- What follows a case is below it, wherever the reading began. -/
theorem filter_afterCursor {after : Option (DateTime × Uuid)} {c : ReviewCase} (hc : afterCursor after c = true) :
    ((queue q.store f).filter (afterCursor after)).filter (fun d => d.queueKey < c.queueKey) =
      (queue q.store f).filter (afterCursor (some (c.openedAt, c.id))) := by
  rw [List.filter_filter]
  refine List.filter_congr fun d _ => ?_
  rw [afterCursor_key, Bool.and_eq_left_iff_imp]
  intro hlt
  cases after with
  | none => rfl
  | some k =>
    have hkey := of_decide_eq_true hlt
    simp only [ReviewCase.queueKey, Prod.Lex.toLex_lt_toLex] at hkey
    simp only [afterCursor, Option.all_some, Bool.or_eq_true, decide_eq_true_eq, Bool.and_eq_true] at hc ⊢
    omega

theorem page_mem {after : Option (DateTime × Uuid)} {c : ReviewCase}
    (hlast : ((Keyset.rows (rowCount q.store f) ((queue q.store f).filter (afterCursor after))).take limit).getLast? = some c) :
    c ∈ q.store.cases ∧ afterCursor after c = true := by
  have hmem := Keyset.mem_of_mem_rows (List.mem_of_mem_take (List.mem_of_getLast? hlast))
  obtain ⟨hqueue, hafter⟩ := List.mem_filter.1 hmem
  exact ⟨(mem_queue.1 hqueue).1, hafter⟩

theorem Following.reads (hlimit : 1 ≤ limit) {cursor : Option String} {items : List ReviewCase}
    (h : Following q.store f limit cursor items) : ∀ after, readCursor cursor = some after →
      Keyset.Reads ReviewCase.queueKey (rowCount q.store f) limit ((queue q.store f).filter (afterCursor after)) items := by
  induction h with
  | @last cursor items hpage =>
    intro after hafter
    rw [listCases_eq q.case_ids hafter rfl, Option.some.injEq, ReviewCasePage.mk.injEq] at hpage
    obtain ⟨rfl, hnext⟩ := hpage
    have hle : (Keyset.rows (rowCount q.store f) ((queue q.store f).filter (afterCursor after))).length ≤ limit := by
      by_contra hlt
      rw [if_pos (not_le.1 hlt), Option.map_eq_none_iff, List.getLast?_eq_none_iff, List.take_eq_nil_iff] at hnext
      rcases hnext with h0 | hnil
      · omega
      · rw [hnil] at hlt
        exact hlt (Nat.zero_le limit)
    rw [List.take_of_length_le hle]
    exact .last hle
  | @next cursor next items rest hpage hrest ih =>
    intro after hafter
    rw [listCases_eq q.case_ids hafter rfl, Option.some.injEq, ReviewCasePage.mk.injEq] at hpage
    obtain ⟨rfl, hnext⟩ := hpage
    split_ifs at hnext with hmore
    obtain ⟨c, hlast, rfl⟩ := Option.map_eq_some_iff.1 hnext
    obtain ⟨hc, hbelow⟩ := page_mem hlast
    refine .next hmore hlast ?_
    rw [filter_afterCursor hbelow]
    exact ih _ (readCursor_encode hc)

theorem following_of_reads {L items : List ReviewCase}
    (h : Keyset.Reads ReviewCase.queueKey (rowCount q.store f) limit L items) : ∀ cursor after,
      readCursor cursor = some after → L = (queue q.store f).filter (afterCursor after) →
        Following q.store f limit cursor items := by
  induction h with
  | @last L hle =>
    rintro cursor after hafter rfl
    refine .last ?_
    rw [listCases_eq q.case_ids hafter rfl, if_neg (not_lt.2 hle), List.take_of_length_le hle]
  | @next L out c hmore hlast hrest ih =>
    rintro cursor after hafter rfl
    obtain ⟨hc, hbelow⟩ := page_mem hlast
    have hpage := @listCases_eq q.store f limit q.case_ids _ _ hafter _ rfl
    rw [if_pos hmore, hlast, Option.map_some] at hpage
    exact .next hpage (ih _ _ (readCursor_encode hc) (filter_afterCursor hbelow))

theorem queue_all : (queue q.store f).filter (afterCursor none) = queue q.store f := List.filter_eq_self.2 fun _ _ => rfl

/-- What is listed once and in order was cut after every case with several rows. -/
theorem ListsQueue.aligned (hlimit : 1 ≤ limit) (h : ListsQueue q.store f limit) :
    Keyset.Aligned (rowCount q.store f) limit (queue q.store f) := by
  obtain ⟨items, hfollow, hsorted, -⟩ := h
  have hreads := hfollow.reads hlimit none rfl
  rw [queue_all] at hreads
  have hnodup : items.Nodup := by
    refine hsorted.imp ?_
    rintro c d hlt rfl
    exact lt_irrefl _ hlt
  exact hreads.aligned (pairwise_queue q.case_ids) (fun c hc => rowCount_pos (mem_queue.1 hc).2) hnodup

theorem listsQueue_of_aligned (hlimit : 1 ≤ limit)
    (h : Keyset.Aligned (rowCount q.store f) limit (queue q.store f)) : ListsQueue q.store f limit := by
  have hreads := h.reads hlimit (pairwise_queue q.case_ids) fun c hc => rowCount_pos (mem_queue.1 hc).2
  exact ⟨queue q.store f, following_of_reads hreads none none rfl queue_all.symm, pairwise_queue q.case_ids,
    fun c => mem_queue⟩

end

/-- Following the cursors lists the cases that satisfy the filters, each once and in order, exactly when every
case with several matching triggers is the last of a page: when its place in the queue is a multiple of the
limit. The cursors themselves are always read back. -/
theorem listsQueue_iff (q : QueueTables) (f : QueueFilter) (limit : ℕ) (hlimit : 1 ≤ limit) :
    ListsQueue q.store f limit ∧ CursorsRead q.store ↔ Keyset.Aligned (rowCount q.store f) limit (queue q.store f) := by
  constructor
  · rintro ⟨hlists, -⟩
    exact hlists.aligned hlimit
  · intro haligned
    exact ⟨listsQueue_of_aligned hlimit haligned, fun c hc => decodeCursor_encodeCursor (q.opened c hc)⟩

/-- Two cases of one moment; the second in the queue has two match reasons. -/
def queuedCase (n : ℕ) : ReviewCase where
  id := Uuid.ofNat n
  matchRunId := Uuid.ofNat (n + 10)
  status := .opened
  assignedReviewerId := none
  version := 1
  openedAt := .first
  claimedAt := none
  resolvedAt := none
  resolution := none
  resolutionReason := none

def reasonRow (n : ℕ) (code : ReasonCode) : ReviewCaseTrigger :=
  ⟨Uuid.ofNat n, ⟨.matchReason, code.value, Uuid.ofNat (n + 10)⟩, .first⟩

def twoReasons : QueueTables where
  store := ⟨[queuedCase 1, queuedCase 2], [],
    [reasonRow 1 .quantityMismatch, reasonRow 1 .currencyMismatch, reasonRow 2 .currencyMismatch]⟩
  case_ids := by decide
  opened := by decide

def matchReasons : QueueFilter := ⟨none, none, none, some .matchReason, none, none, none⟩

theorem queue_twoReasons : queue twoReasons.store matchReasons = [queuedCase 2, queuedCase 1] := by decide +kernel

theorem aligned_twoReasons :
    Keyset.Aligned (rowCount twoReasons.store matchReasons) 2 (queue twoReasons.store matchReasons) := by
  have hone : rowCount twoReasons.store matchReasons (queuedCase 2) = 1 := by decide +kernel
  rw [queue_twoReasons]
  intro i hi hrows
  cases i with
  | zero => exact absurd hone (Nat.ne_of_gt hrows)
  | succ i =>
    cases i with
    | zero => decide
    | succ i => exact absurd hi (by simp)

/-- On pages of two cases the one with two match reasons is the last. -/
theorem listsQueue_iff_twoReasons : 1 ≤ 2 ∧
    Keyset.Aligned (rowCount twoReasons.store matchReasons) 2 (queue twoReasons.store matchReasons) ∧
    ListsQueue twoReasons.store matchReasons 2 ∧ CursorsRead twoReasons.store :=
  ⟨by decide, aligned_twoReasons, (listsQueue_iff twoReasons matchReasons 2 (by decide)).2 aligned_twoReasons⟩

/-- On one page of fifty the case with two match reasons is listed twice. -/
theorem twoReasons_listed_twice :
    ¬(ListsQueue twoReasons.store matchReasons 50 ∧ CursorsRead twoReasons.store) := by
  have hcount : rowCount twoReasons.store matchReasons (queuedCase 1) = 2 := by decide +kernel
  rintro ⟨hlists, -⟩
  have haligned := hlists.aligned (by decide)
  rw [queue_twoReasons] at haligned
  have hplace := haligned 1 (by decide) (by rw [List.getElem_cons_succ, List.getElem_cons_zero, hcount]; decide)
  exact absurd hplace (by decide)

end InvoiceOps
