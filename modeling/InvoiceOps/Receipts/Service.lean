import InvoiceOps.Cases.Confirming

/-! Goods receipts (`receipts/service.py`, `schemas/receipts.py`): a receipt is created once for its purchase order and
its number, and a request that is sent again is told apart from a changed one by a fingerprint. The fingerprint
forgets the order of the lines and the time zone, and keeps the decimal places of the quantities. -/

namespace Decimal

def places (d : Decimal) : ℕ := (-d.exp).toNat

theorem toDigits_mul_pow {c : ℕ} (hc : 0 < c) (n : ℕ) :
    Nat.toDigits 10 c ++ List.replicate n '0' = Nat.toDigits 10 (c * 10 ^ n) := by
  induction n with
  | zero => simp
  | succ n ih =>
    have hpos : 0 < c * 10 ^ n := Nat.mul_pos hc (Nat.pow_pos (by norm_num))
    have hzero : Nat.toDigits 10 0 = ['0'] := rfl
    rw [List.replicate_succ', ← List.append_assoc, ih, ← hzero,
      Nat.toDigits_append_toDigits (by norm_num) hpos (by norm_num)]
    congr 1
    ring

/-- The number with an exponent that is not positive, as it is printed. -/
def fixed (d : Decimal) : Decimal := ⟨d.neg, d.coeff * 10 ^ d.exp.toNat, -d.places⟩

theorem fixed_of_neg {d : Decimal} (h : d.exp < 0) : d.fixed = d := by
  have hexp : d.exp.toNat = 0 := by omega
  have hplaces : (-d.places : ℤ) = d.exp := by rw [places]; omega
  rw [fixed, hexp, hplaces, pow_zero, mul_one]

theorem fixed_of_nonneg {d : Decimal} (h : 0 ≤ d.exp) : d.fixed = ⟨d.neg, d.coeff * 10 ^ d.exp.toNat, 0⟩ := by
  have hplaces : (-d.places : ℤ) = 0 := by rw [places]; omega
  rw [fixed, hplaces]

theorem ofText_text_fixed (d : Decimal) : ofText d.text = some d.fixed := by
  rcases lt_or_ge d.exp 0 with h | h
  · rw [ofText_text_of_neg h, fixed_of_neg h]
  · rw [ofText_text_of_nonneg h, fixed_of_nonneg h]

theorem toRat_fixed (d : Decimal) : d.fixed.toRat = d.toRat := by
  obtain ⟨d', hd', hrat⟩ := ofText_text d
  rw [ofText_text_fixed, Option.some.injEq] at hd'
  rw [hd', hrat]

theorem text_fixed (d : Decimal) : d.fixed.text = d.text := by
  rcases lt_or_ge d.exp 0 with h | h
  · rw [fixed_of_neg h]
  · rw [fixed_of_nonneg h, text, text, chars, chars]
    simp only [le_refl, if_true, h, Int.toNat_zero, List.replicate_zero, List.append_nil]
    by_cases h0 : d.coeff = 0
    · simp [h0]
    · have hne : d.coeff * 10 ^ d.exp.toNat ≠ 0 := Nat.mul_ne_zero h0 (pow_ne_zero _ (by norm_num))
      rw [if_neg hne, if_neg h0, toDigits_mul_pow (Nat.pos_of_ne_zero h0)]

theorem text_eq_text_iff {a b : Decimal} : a.text = b.text ↔ a.fixed = b.fixed := by
  constructor
  · intro h
    have hread := ofText_text_fixed a
    rw [h, ofText_text_fixed] at hread
    exact (Option.some.inj hread).symm
  · intro h
    rw [← text_fixed a, h, text_fixed]

theorem neg_of_pos {d : Decimal} (h : 0 < d.toRat) : d.neg = false := by
  by_contra hneg
  have hsign : d.int ≤ 0 := by
    rw [int, if_pos (by simpa using hneg)]
    omega
  have hscale : (0 : ℚ) < 10 ^ d.exp := zpow_pos (by norm_num) _
  have hle : (d.int : ℚ) ≤ 0 := by exact_mod_cast hsign
  exact absurd (mul_nonpos_of_nonpos_of_nonneg hle hscale.le) (not_le.2 h)

theorem text_eq_iff {a b : Decimal} (ha : 0 < a.toRat) (hb : 0 < b.toRat) :
    a.text = b.text ↔ a.toRat = b.toRat ∧ a.places = b.places := by
  rw [text_eq_text_iff]
  constructor
  · intro h
    have hexp := congrArg exp h
    simp only [fixed] at hexp
    refine ⟨by rw [← toRat_fixed a, h, toRat_fixed], by omega⟩
  · rintro ⟨hrat, hplaces⟩
    rw [← toRat_fixed a, ← toRat_fixed b] at hrat
    have hscale : (10 : ℚ) ^ (-b.places : ℤ) ≠ 0 := zpow_ne_zero _ (by norm_num)
    simp only [toRat, fixed, hplaces, int, neg_of_pos ha, neg_of_pos hb, Bool.false_eq_true, if_false,
      mul_left_inj' hscale] at hrat
    simp only [fixed, neg_of_pos ha, neg_of_pos hb, hplaces, mk.injEq, true_and, and_true]
    exact_mod_cast hrat

end Decimal

namespace InvoiceOps

open Calendar Json StateMachine

/-- `GoodsReceiptCreate`. Its number is stripped; a line has the columns that are stored of it. -/
structure GoodsReceiptCreate where
  purchaseOrderId : Uuid
  externalReceiptNumber : String
  receivedAt : SentDateTime
  lines : List GoodsReceiptLine
  aware : receivedAt.offset.isSome = true
  number_stripped : Text.strip externalReceiptNumber = externalReceiptNumber
  number_ne : externalReceiptNumber ≠ ""
  lines_ne : lines ≠ []
  line_ids : (lines.map (·.purchaseOrderLineId)).Nodup

/-- What `receipt_request_fingerprint` encodes of a command received at the instant `t`. -/
def GoodsReceiptCreate.envelope (c : GoodsReceiptCreate) (t : DateTime) : Json :=
  .obj [("purchase_order_id", .str c.purchaseOrderId.str), ("external_receipt_number", .str c.externalReceiptNumber),
    ("received_at", .str t.utcText),
    ("lines", .arr ((sortById (·.purchaseOrderLineId) c.lines).map receiptLineJson))]

/-- `receipt_request_fingerprint` -/
def GoodsReceiptCreate.fingerprint (X : Dumps) (c : GoodsReceiptCreate) : Option String :=
  c.receivedAt.toUtc.map fun t => InvoiceOps.fingerprint X (c.envelope t)

inductive ReceiptError
  | purchaseOrderNotFound
  | lineNotFound
  | conflictingReplay
  /-- The timestamp has no value in UTC. -/
  | overflow
  | dataError
deriving DecidableEq, Repr

section

variable (X : Dumps) (db : Tables) (id : Uuid) (c : GoodsReceiptCreate)

/-- `_find_by_business_key` -/
def Tables.findReceipt (purchaseOrderId : Uuid) (number : String) : Option GoodsReceipt :=
  db.receipts.find? fun r => r.purchaseOrderId = purchaseOrderId ∧ r.externalReceiptNumber = number

def GoodsReceiptCreate.row (t : DateTime) : GoodsReceipt where
  id := id
  purchaseOrderId := c.purchaseOrderId
  externalReceiptNumber := c.externalReceiptNumber
  receivedAt := t
  requestFingerprint := InvoiceOps.fingerprint X (c.envelope t)
  lines := c.lines
  reversal := none
  line_ids := c.line_ids

/-- A receipt is added and committed. After an `IntegrityError` the number is looked up again, and is not there. -/
def Tables.addReceipt (row : GoodsReceipt) : Except ReceiptError (GoodsReceipt × Bool) × Tables :=
  match row.stored with
  | .error .integrity => (.error .conflictingReplay, db)
  | .error _ => (.error .dataError, db)
  | .ok r =>
    if db.AcceptsReceipt r then (.ok (r, true), { db with receipts := db.receipts ++ [r] })
    else (.error .conflictingReplay, db)

/-- `GoodsReceiptService.create`, under the lock of the purchase order: what is returned, and the tables after it. -/
def Tables.createReceipt : Except ReceiptError (GoodsReceipt × Bool) × Tables :=
  match db.purchaseOrder c.purchaseOrderId with
  | none => (.error .purchaseOrderNotFound, db)
  | some po =>
    if ∀ l ∈ c.lines, l.purchaseOrderLineId ∈ po.lines.map (·.id) then
      match c.receivedAt.toUtc with
      | none => (.error .overflow, db)
      | some t =>
        if noNul c.externalReceiptNumber then
          match db.findReceipt c.purchaseOrderId c.externalReceiptNumber with
          | some existing =>
            if existing.requestFingerprint = InvoiceOps.fingerprint X (c.envelope t) then (.ok (existing, false), db)
            else (.error .conflictingReplay, db)
          | none => db.addReceipt (c.row X id t)
        else (.error .dataError, db)
    else (.error .lineNotFound, db)

end

/-- The same purchase order, number and instant, and the same quantities, as numbers, of the same lines. -/
structure SameRequest (c c' : GoodsReceiptCreate) : Prop where
  order : c.purchaseOrderId = c'.purchaseOrderId
  number : c.externalReceiptNumber = c'.externalReceiptNumber
  instant : c.receivedAt.instant = c'.receivedAt.instant
  lines : ∀ (id : Uuid) (q : ℚ),
    (∃ l ∈ c.lines, l.purchaseOrderLineId = id ∧ l.acceptedQuantity.toRat = q) ↔
      ∃ l ∈ c'.lines, l.purchaseOrderLineId = id ∧ l.acceptedQuantity.toRat = q

/-- The quantities of one line are written with the same number of decimal places. -/
def SamePlaces (c c' : GoodsReceiptCreate) : Prop :=
  ∀ l ∈ c.lines, ∀ l' ∈ c'.lines, l.purchaseOrderLineId = l'.purchaseOrderLineId →
    l.acceptedQuantity.places = l'.acceptedQuantity.places

def GoodsReceiptLine.printed (l : GoodsReceiptLine) : Uuid × String := (l.purchaseOrderLineId, l.acceptedQuantity.text)

theorem printed_of_same {l l' : GoodsReceiptLine} (h : Same (receiptLineJson l) (receiptLineJson l')) :
    l.printed = l'.printed := by
  have hvalues := Same.values h (by simp only [List.map_cons, List.map_nil]) (by simp)
  simp only [List.map_cons, List.map_nil, List.forall₂_cons, List.Forall₂.nil, and_true] at hvalues
  exact Prod.ext (Uuid.str_inj (same_str hvalues.1)) (same_str hvalues.2)

theorem printed_inj {xs : List GoodsReceiptLine} (hx : (xs.map (·.purchaseOrderLineId)).Nodup) {p q : Uuid × String}
    (hp : p ∈ xs.map GoodsReceiptLine.printed) (hq : q ∈ xs.map GoodsReceiptLine.printed) (h : p.1 = q.1) : p = q := by
  obtain ⟨l, hl, rfl⟩ := List.mem_map.1 hp
  obtain ⟨m, hm, rfl⟩ := List.mem_map.1 hq
  rw [List.inj_on_of_nodup_map hx hl hm h]

theorem sorted_printed_iff {xs ys : List GoodsReceiptLine} (hx : (xs.map (·.purchaseOrderLineId)).Nodup)
    (hy : (ys.map (·.purchaseOrderLineId)).Nodup) :
    (sortById (·.purchaseOrderLineId) xs).map GoodsReceiptLine.printed =
        (sortById (·.purchaseOrderLineId) ys).map GoodsReceiptLine.printed ↔
      ∀ p, p ∈ xs.map GoodsReceiptLine.printed ↔ p ∈ ys.map GoodsReceiptLine.printed := by
  have hperm : ∀ zs : List GoodsReceiptLine,
      ((sortById (·.purchaseOrderLineId) zs).map GoodsReceiptLine.printed).Perm (zs.map GoodsReceiptLine.printed) :=
    fun zs => (perm_sortById _ _).map _
  have hsorted : ∀ zs : List GoodsReceiptLine,
      ((sortById (·.purchaseOrderLineId) zs).map GoodsReceiptLine.printed).Pairwise fun p q => p.1.str ≤ q.1.str := by
    intro zs
    rw [List.pairwise_map]
    exact List.pairwise_insertionSort (fun x y : GoodsReceiptLine =>
      x.purchaseOrderLineId.str ≤ y.purchaseOrderLineId.str) zs
  have hnodup : ∀ {zs : List GoodsReceiptLine}, (zs.map (·.purchaseOrderLineId)).Nodup →
      (zs.map GoodsReceiptLine.printed).Nodup := by
    intro zs hz
    refine .of_map Prod.fst ?_
    rw [List.map_map]
    exact hz
  constructor
  · intro h p
    rw [← (hperm xs).mem_iff, h, (hperm ys).mem_iff]
  · intro h
    have hsame : (xs.map GoodsReceiptLine.printed).Perm (ys.map GoodsReceiptLine.printed) :=
      (List.perm_ext_iff_of_nodup (hnodup hx) (hnodup hy)).2 h
    refine List.Perm.eq_of_pairwise ?_ (hsorted xs) (hsorted ys) ((hperm xs).trans (hsame.trans (hperm ys).symm))
    intro p q hp hq hpq hqp
    exact printed_inj hx ((hperm xs).mem_iff.1 hp) ((h q).2 ((hperm ys).mem_iff.1 hq))
      (Uuid.str_inj (le_antisymm hpq hqp))

/-- Two commands print the same lines when they have the same quantities with the same decimal places. -/
theorem mem_printed_iff {c c' : GoodsReceiptCreate} :
    (∀ p, p ∈ c.lines.map GoodsReceiptLine.printed ↔ p ∈ c'.lines.map GoodsReceiptLine.printed) ↔
      (∀ (id : Uuid) (q : ℚ), (∃ l ∈ c.lines, l.purchaseOrderLineId = id ∧ l.acceptedQuantity.toRat = q) ↔
        ∃ l ∈ c'.lines, l.purchaseOrderLineId = id ∧ l.acceptedQuantity.toRat = q) ∧ SamePlaces c c' := by
  have htext : ∀ {l l' : GoodsReceiptLine}, l.printed = l'.printed ↔
      l.purchaseOrderLineId = l'.purchaseOrderLineId ∧ l.acceptedQuantity.toRat = l'.acceptedQuantity.toRat ∧
        l.acceptedQuantity.places = l'.acceptedQuantity.places := by
    intro l l'
    rw [GoodsReceiptLine.printed, GoodsReceiptLine.printed, Prod.mk.injEq,
      Decimal.text_eq_iff l.positive l'.positive]
  constructor
  · intro h
    have hmatch : ∀ {d d' : GoodsReceiptCreate},
        (∀ p, p ∈ d.lines.map GoodsReceiptLine.printed → p ∈ d'.lines.map GoodsReceiptLine.printed) →
        ∀ l ∈ d.lines, ∃ l' ∈ d'.lines, l'.purchaseOrderLineId = l.purchaseOrderLineId ∧
          l'.acceptedQuantity.toRat = l.acceptedQuantity.toRat ∧
          l'.acceptedQuantity.places = l.acceptedQuantity.places := by
      intro d d' hd l hl
      obtain ⟨l', hl', heq⟩ := List.mem_map.1 (hd l.printed (List.mem_map_of_mem hl))
      exact ⟨l', hl', htext.1 heq⟩
    refine ⟨fun id q => ⟨?_, ?_⟩, ?_⟩
    · rintro ⟨l, hl, rfl, rfl⟩
      obtain ⟨l', hl', hid, hq, -⟩ := hmatch (fun p => (h p).1) l hl
      exact ⟨l', hl', hid, hq⟩
    · rintro ⟨l, hl, rfl, rfl⟩
      obtain ⟨l', hl', hid, hq, -⟩ := hmatch (fun p => (h p).2) l hl
      exact ⟨l', hl', hid, hq⟩
    · intro l hl l' hl' hid
      obtain ⟨m, hm, hmid, -, hplaces⟩ := hmatch (fun p => (h p).1) l hl
      rw [← hplaces, List.inj_on_of_nodup_map c'.line_ids hm hl' (hmid.trans hid)]
  · rintro ⟨hlines, hplaces⟩ p
    constructor
    · intro hp
      obtain ⟨l, hl, rfl⟩ := List.mem_map.1 hp
      obtain ⟨l', hl', hid, hq⟩ := (hlines l.purchaseOrderLineId l.acceptedQuantity.toRat).1 ⟨l, hl, rfl, rfl⟩
      exact List.mem_map.2 ⟨l', hl', htext.2 ⟨hid, hq, (hplaces l hl l' hl' hid.symm).symm⟩⟩
    · intro hp
      obtain ⟨l', hl', rfl⟩ := List.mem_map.1 hp
      obtain ⟨l, hl, hid, hq⟩ := (hlines l'.purchaseOrderLineId l'.acceptedQuantity.toRat).2 ⟨l', hl', rfl, rfl⟩
      exact List.mem_map.2 ⟨l, hl, htext.2 ⟨hid, hq, hplaces l hl l' hl' hid⟩⟩

section

variable {X : Dumps} {c c' : GoodsReceiptCreate}

/-- Equal fingerprints are those of the same request with the same decimal places. -/
theorem fingerprint_eq_iff (hsha : Function.Injective X.sha256) {t t' : DateTime} (ht : c.receivedAt.toUtc = some t)
    (ht' : c'.receivedAt.toUtc = some t') :
    InvoiceOps.fingerprint X (c.envelope t) = InvoiceOps.fingerprint X (c'.envelope t') ↔
      SameRequest c c' ∧ SamePlaces c c' := by
  have hinstant := SentDateTime.toUtc_eq_some ht
  have hinstant' := SentDateTime.toUtc_eq_some ht'
  constructor
  · intro h
    have hsame := same_of_fingerprint hsha h
    have hvalues := Same.values hsame (by simp only [List.map_cons, List.map_nil]) (by simp)
    simp only [List.map_cons, List.map_nil, List.forall₂_cons, List.Forall₂.nil, and_true] at hvalues
    obtain ⟨horder, hnumber, htime, hlines⟩ := hvalues
    have hprinted := (sorted_printed_iff c.line_ids c'.line_ids).1
      (map_eq_of_same_arr (fun _ _ => printed_of_same) hlines)
    obtain ⟨hquantities, hplaces⟩ := mem_printed_iff.1 hprinted
    have htime := DateTime.utcText_inj (same_str htime)
    exact ⟨⟨Uuid.str_inj (same_str horder), same_str hnumber, by omega, hquantities⟩, hplaces⟩
  · rintro ⟨hsame, hplaces⟩
    have hprinted := (sorted_printed_iff c.line_ids c'.line_ids).2 (mem_printed_iff.2 ⟨hsame.lines, hplaces⟩)
    have hjson : ∀ xs : List GoodsReceiptLine, xs.map receiptLineJson = (xs.map GoodsReceiptLine.printed).map
        fun p => .obj [("purchase_order_line_id", .str p.1.str), ("accepted_quantity", .str p.2)] := by
      intro xs
      rw [List.map_map]
      rfl
    have htime : t.instant = t'.instant := by
      have := hsame.instant
      omega
    rw [GoodsReceiptCreate.envelope, GoodsReceiptCreate.envelope, hjson, hprinted, ← hjson, hsame.order, hsame.number,
      DateTime.utcText, DateTime.utcText, htime]

end

/-- What happens to the tables of orders and receipts: requests, receipts confirmed in a case, reversals and new
orders. The other tables change in any way. -/
inductive ReceiptAct
  | create (id : Uuid) (c : GoodsReceiptCreate)
  | confirm (r : GoodsReceipt)
  | reverse (id : Uuid) (reversal : GoodsReceiptReversal)
  | createOrder (po : PurchaseOrder)
  | others (rest : Tables)

/-- The receipt with that id is reversed, if it is not yet. -/
def GoodsReceipt.reverseIf (id : Uuid) (reversal : GoodsReceiptReversal) (r : GoodsReceipt) : GoodsReceipt :=
  if r.id = id ∧ r.reversal = none then r.reverse reversal else r

def Tables.nextReceipt (X : Dumps) (db : Tables) : ReceiptAct → Option Tables
  | .create id c => some (db.createReceipt X id c).2
  | .confirm r => if db.AcceptsReceipt r then some { db with receipts := db.receipts ++ [r] } else none
  | .reverse id reversal => some { db with receipts := db.receipts.map (GoodsReceipt.reverseIf id reversal) }
  | .createOrder po =>
    if po.id ∈ db.purchaseOrders.map (·.id) then none
    else some { db with purchaseOrders := db.purchaseOrders ++ [po] }
  | .others rest => some { rest with purchaseOrders := db.purchaseOrders, receipts := db.receipts }

/-- The receipt `id` stands for the command: it is found under its number and has its fingerprint. -/
structure StoredFor (X : Dumps) (c : GoodsReceiptCreate) (id : Uuid) (db : Tables) : Prop where
  number : noNul c.externalReceiptNumber
  order : ∃ po, db.purchaseOrder c.purchaseOrderId = some po ∧
    ∀ l ∈ c.lines, l.purchaseOrderLineId ∈ po.lines.map (·.id)
  receipt : ∃ r t, db.findReceipt c.purchaseOrderId c.externalReceiptNumber = some r ∧ r.id = id ∧
    c.receivedAt.toUtc = some t ∧ r.requestFingerprint = InvoiceOps.fingerprint X (c.envelope t)

section

variable {X : Dumps} {db db' : Tables} {c : GoodsReceiptCreate} {id : Uuid}

theorem addReceipt_cases (row : GoodsReceipt) : (db.addReceipt row).2 = db ∧ (∀ r, (db.addReceipt row).1 ≠ .ok (r, true)) ∨
    ∃ r, row.stored = .ok r ∧ db.addReceipt row = (.ok (r, true), { db with receipts := db.receipts ++ [r] }) := by
  unfold Tables.addReceipt
  split
  · exact .inl ⟨rfl, by simp⟩
  · exact .inl ⟨rfl, by simp⟩
  · next r hr =>
    split_ifs
    · exact .inr ⟨r, hr, rfl⟩
    · exact .inl ⟨rfl, by simp⟩

variable (X db c id) in
/-- A request adds nothing, or the receipt of a number that was not there. -/
theorem createReceipt_cases : (db.createReceipt X id c).2 = db ∧ (∀ r, (db.createReceipt X id c).1 ≠ .ok (r, true)) ∨
    ∃ po t r, db.purchaseOrder c.purchaseOrderId = some po ∧
      (∀ l ∈ c.lines, l.purchaseOrderLineId ∈ po.lines.map (·.id)) ∧ c.receivedAt.toUtc = some t ∧
      noNul c.externalReceiptNumber ∧ db.findReceipt c.purchaseOrderId c.externalReceiptNumber = none ∧
      (c.row X id t).stored = .ok r ∧
      db.createReceipt X id c = (.ok (r, true), { db with receipts := db.receipts ++ [r] }) := by
  unfold Tables.createReceipt
  split
  · exact .inl ⟨rfl, by simp⟩
  · next po hpo =>
    split
    · next hlines =>
      split
      · exact .inl ⟨rfl, by simp⟩
      · next t ht =>
        split
        · next hnul =>
          split
          · split <;> exact .inl ⟨rfl, by simp⟩
          · next hnone =>
            rcases addReceipt_cases (c.row X id t) with h | ⟨r, hr, h⟩
            · exact .inl h
            · exact .inr ⟨po, t, r, hpo, hlines, ht, hnul, hnone, hr, h⟩
        · exact .inl ⟨rfl, by simp⟩
    · exact .inl ⟨rfl, by simp⟩

theorem GoodsReceipt.stored_keeps {r r' : GoodsReceipt} (h : r.stored = .ok r') :
    r'.id = r.id ∧ r'.purchaseOrderId = r.purchaseOrderId ∧ r'.externalReceiptNumber = r.externalReceiptNumber ∧
      r'.requestFingerprint = r.requestFingerprint := by
  unfold GoodsReceipt.stored at h
  split_ifs at h
  split at h
  · cases h
  · split_ifs at h
    obtain rfl := Except.ok.inj h
    exact ⟨rfl, rfl, rfl, rfl⟩

theorem storedFor_of_created {r : GoodsReceipt} (h : db.createReceipt X id c = (.ok (r, true), db')) :
    StoredFor X c r.id db' := by
  rcases createReceipt_cases X db c id with ⟨-, hnot⟩ |
    ⟨po, t, s, hpo, hlines, ht, hnul, hnone, hs, hcreated⟩
  · exact absurd (congrArg Prod.fst h) (hnot r)
  · rw [hcreated] at h
    obtain ⟨hok, rfl⟩ := Prod.mk.inj h
    obtain ⟨rfl, -⟩ := Prod.mk.inj (Except.ok.inj hok)
    obtain ⟨-, horder, hnumber, hfingerprint⟩ := GoodsReceipt.stored_keeps hs
    refine ⟨hnul, ⟨po, hpo, hlines⟩, s, t, ?_, rfl, ht, hfingerprint⟩
    rw [Tables.findReceipt] at hnone ⊢
    simp only [List.find?_append, hnone, Option.none_or]
    exact List.find?_cons_of_pos (decide_eq_true ⟨horder, hnumber⟩)

theorem StoredFor.append (h : StoredFor X c id db) (r : GoodsReceipt) :
    StoredFor X c id { db with receipts := db.receipts ++ [r] } := by
  obtain ⟨s, t, hs, hrest⟩ := h.receipt
  refine ⟨h.number, h.order, s, t, ?_, hrest⟩
  rw [Tables.findReceipt] at hs ⊢
  simp only [List.find?_append, hs, Option.some_or]

theorem StoredFor.reverse (h : StoredFor X c id db) (id' : Uuid) (reversal : GoodsReceiptReversal) :
    StoredFor X c id { db with receipts := db.receipts.map (GoodsReceipt.reverseIf id' reversal) } := by
  obtain ⟨s, t, hs, hid, ht, hfingerprint⟩ := h.receipt
  have hkeeps : ∀ r : GoodsReceipt, (r.reverseIf id' reversal).id = r.id ∧
      (r.reverseIf id' reversal).purchaseOrderId = r.purchaseOrderId ∧
      (r.reverseIf id' reversal).externalReceiptNumber = r.externalReceiptNumber ∧
      (r.reverseIf id' reversal).requestFingerprint = r.requestFingerprint := by
    intro r
    unfold GoodsReceipt.reverseIf
    split_ifs <;> exact ⟨rfl, rfl, rfl, rfl⟩
  refine ⟨h.number, h.order, s.reverseIf id' reversal, t, ?_, (hkeeps s).1.trans hid, ht,
    (hkeeps s).2.2.2.trans hfingerprint⟩
  rw [Tables.findReceipt] at hs ⊢
  simp only [List.find?_map, Function.comp_def, (hkeeps _).2.1, (hkeeps _).2.2.1, hs, Option.map_some]

theorem StoredFor.step {a : ReceiptAct} (h : StoredFor X c id db) (hstep : db.nextReceipt X a = some db') :
    StoredFor X c id db' := by
  cases a with
  | create id' c' =>
    obtain rfl := Option.some.inj hstep
    rcases createReceipt_cases X db c' id' with ⟨hsame, -⟩ |
      ⟨-, -, r, -, -, -, -, -, -, hcreated⟩
    · rw [hsame]
      exact h
    · rw [hcreated]
      exact h.append r
  | confirm r =>
    simp only [Tables.nextReceipt] at hstep
    split_ifs at hstep
    obtain rfl := Option.some.inj hstep
    exact h.append r
  | reverse id' reversal =>
    obtain rfl := Option.some.inj hstep
    exact h.reverse id' reversal
  | createOrder po =>
    simp only [Tables.nextReceipt] at hstep
    split_ifs at hstep
    obtain rfl := Option.some.inj hstep
    obtain ⟨po', hpo', hlines⟩ := h.order
    refine ⟨h.number, ⟨po', ?_, hlines⟩, h.receipt⟩
    rw [Tables.purchaseOrder] at hpo' ⊢
    simp only [List.find?_append, hpo', Option.some_or]
  | others rest =>
    obtain rfl := Option.some.inj hstep
    exact ⟨h.number, h.order, h.receipt⟩

theorem StoredFor.steps {acts : List ReceiptAct} (h : StoredFor X c id db)
    (hrun : Steps (Tables.nextReceipt X) db acts db') : StoredFor X c id db' := by
  induction hrun with
  | nil => exact h
  | snoc _ hstep ih => exact ih.step hstep

end

section

variable (X : Dumps) (db : Tables)

/-- A second command is answered as the same request, or as a changed one, by its numbers: fingerprints are equal for
the same request alone, the same request gets the stored receipt, a changed one on the same number is a conflict, and
nothing is written. -/
structure ReplaysNumerically (c : GoodsReceiptCreate) (id : Uuid) (c' : GoodsReceiptCreate) : Prop where
  fingerprint : (∃ f, c.fingerprint X = some f ∧ c'.fingerprint X = some f) ↔ SameRequest c c'
  same : SameRequest c c' → ∀ fresh, ∃ r, r.id = id ∧ db.createReceipt X fresh c' = (.ok (r, false), db)
  changed : c.purchaseOrderId = c'.purchaseOrderId → c.externalReceiptNumber = c'.externalReceiptNumber →
    ¬ SameRequest c c' → ∀ fresh, db.createReceipt X fresh c' = (.error .conflictingReplay, db)

/-- The same request has the same decimal places, and a changed one on the same number names lines of the purchase
order only and a time that there is in UTC. -/
structure ComparableReplay (c c' : GoodsReceiptCreate) : Prop where
  places : SameRequest c c' → SamePlaces c c'
  changed : c.purchaseOrderId = c'.purchaseOrderId → c.externalReceiptNumber = c'.externalReceiptNumber →
    ¬ SameRequest c c' → (∀ po, db.purchaseOrder c'.purchaseOrderId = some po →
      ∀ l ∈ c'.lines, l.purchaseOrderLineId ∈ po.lines.map (·.id)) ∧
      0 ≤ c'.receivedAt.instant ∧ c'.receivedAt.instant < maxInstant

end

section

variable {X : Dumps} {db : Tables} {c c' : GoodsReceiptCreate} {id : Uuid}

/-- With the number of the stored receipt and lines of its order, a command is compared by its fingerprint. -/
theorem StoredFor.createReceipt (h : StoredFor X c id db) (hsha : Function.Injective X.sha256)
    (horder : c.purchaseOrderId = c'.purchaseOrderId) (hnumber : c.externalReceiptNumber = c'.externalReceiptNumber)
    (hlines : ∀ po, db.purchaseOrder c'.purchaseOrderId = some po →
      ∀ l ∈ c'.lines, l.purchaseOrderLineId ∈ po.lines.map (·.id))
    {t' : DateTime} (ht' : c'.receivedAt.toUtc = some t') (fresh : Uuid) :
    (SameRequest c c' ∧ SamePlaces c c' → ∃ r, r.id = id ∧ db.createReceipt X fresh c' = (.ok (r, false), db)) ∧
      (¬ (SameRequest c c' ∧ SamePlaces c c') → db.createReceipt X fresh c' = (.error .conflictingReplay, db)) := by
  obtain ⟨po, hpo, -⟩ := h.order
  obtain ⟨r, t, hr, hid, ht, hfingerprint⟩ := h.receipt
  have hnul := h.number
  rw [horder] at hpo hr
  rw [hnumber] at hr hnul
  have hcompare := fingerprint_eq_iff hsha ht ht'
  simp only [Tables.createReceipt, hpo, if_pos (hlines po hpo), ht', if_pos hnul, hr, hfingerprint]
  constructor
  · intro hsame
    exact ⟨r, hid, if_pos (hcompare.2 hsame)⟩
  · intro hnot
    exact if_neg (mt hcompare.1 hnot)

theorem exists_fingerprint_iff (hsha : Function.Injective X.sha256) {t : DateTime} (ht : c.receivedAt.toUtc = some t) :
    (∃ f, c.fingerprint X = some f ∧ c'.fingerprint X = some f) ↔ SameRequest c c' ∧ SamePlaces c c' := by
  rw [GoodsReceiptCreate.fingerprint, GoodsReceiptCreate.fingerprint, ht]
  cases ht' : c'.receivedAt.toUtc with
  | none =>
    refine iff_of_false (by simp) ?_
    rintro ⟨hsame, -⟩
    have hrange : c.receivedAt.toUtc.isSome = true := by rw [ht]; rfl
    rw [SentDateTime.toUtc_isSome, hsame.instant, ← SentDateTime.toUtc_isSome, ht'] at hrange
    cases hrange
  | some t' =>
    rw [← fingerprint_eq_iff hsha ht ht']
    simp [eq_comm]

/-- The lines of the order are read before the number is looked up, and so is the time in UTC. -/
theorem comparable_of_conflict (hpo : (db.purchaseOrder c'.purchaseOrderId).isSome) {fresh : Uuid}
    (h : db.createReceipt X fresh c' = (.error .conflictingReplay, db)) :
    (∀ po, db.purchaseOrder c'.purchaseOrderId = some po →
      ∀ l ∈ c'.lines, l.purchaseOrderLineId ∈ po.lines.map (·.id)) ∧
      0 ≤ c'.receivedAt.instant ∧ c'.receivedAt.instant < maxInstant := by
  obtain ⟨po, hpo⟩ := Option.isSome_iff_exists.1 hpo
  simp only [Tables.createReceipt, hpo] at h
  by_cases hlines : ∀ l ∈ c'.lines, l.purchaseOrderLineId ∈ po.lines.map (·.id)
  · rw [if_pos hlines] at h
    refine ⟨?_, SentDateTime.toUtc_isSome.1 ?_⟩
    · intro po' hpo'
      rw [hpo] at hpo'
      exact Option.some.inj hpo' ▸ hlines
    · cases ht : c'.receivedAt.toUtc with
      | none =>
        rw [ht] at h
        cases (Prod.mk.inj h).1
      | some t => rfl
  · rw [if_neg hlines] at h
    cases (Prod.mk.inj h).1

/-- A command is answered by its numbers exactly when it is comparable with the stored one. -/
theorem StoredFor.replays_iff (h : StoredFor X c id db) (hsha : Function.Injective X.sha256) :
    ReplaysNumerically X db c id c' ↔ ComparableReplay db c c' := by
  obtain ⟨r, t, hr, -, ht, -⟩ := h.receipt
  obtain ⟨po, hpo, hknown⟩ := h.order
  have hfingerprints : (∃ f, c.fingerprint X = some f ∧ c'.fingerprint X = some f) ↔
      SameRequest c c' ∧ SamePlaces c c' := exists_fingerprint_iff hsha ht
  constructor
  · intro hreplays
    refine ⟨fun hsame => (hfingerprints.1 (hreplays.fingerprint.2 hsame)).2, fun horder hnumber hnot => ?_⟩
    refine comparable_of_conflict ?_ (hreplays.changed horder hnumber hnot c.purchaseOrderId)
    rw [← horder, hpo]
    rfl
  · intro hcomparable
    refine ⟨hfingerprints.trans (and_iff_left_of_imp hcomparable.places), fun hsame fresh => ?_,
      fun horder hnumber hnot fresh => ?_⟩
    · -- the lines of the same request are those of the stored one, which the order has
      have hlines : ∀ po', db.purchaseOrder c'.purchaseOrderId = some po' →
          ∀ l ∈ c'.lines, l.purchaseOrderLineId ∈ po'.lines.map (·.id) := by
        intro po' hpo' l hl
        rw [← hsame.order, hpo] at hpo'
        obtain ⟨m, hm, hid, -⟩ := (hsame.lines l.purchaseOrderLineId l.acceptedQuantity.toRat).2 ⟨l, hl, rfl, rfl⟩
        rw [← Option.some.inj hpo', ← hid]
        exact hknown m hm
      obtain ⟨f, -, ht'⟩ := hfingerprints.2 ⟨hsame, hcomparable.places hsame⟩
      obtain ⟨t', ht', -⟩ := Option.map_eq_some_iff.1 ht'
      exact (h.createReceipt hsha hsame.order hsame.number hlines ht' fresh).1 ⟨hsame, hcomparable.places hsame⟩
    · obtain ⟨hlines, hrange⟩ := hcomparable.changed horder hnumber hnot
      obtain ⟨t', ht'⟩ := Option.isSome_iff_exists.1 (SentDateTime.toUtc_isSome.2 hrange)
      exact (h.createReceipt hsha horder hnumber hlines ht' fresh).2 fun hboth => hnot hboth.1

end

/-- After a receipt was created, and in every state that the services lead to from there, a second command is answered
by its numbers exactly when it is comparable: the same request has the same decimal places, and a changed one names
lines of the purchase order and a time that there is in UTC. -/
theorem receipt_replays_iff (X : Dumps) (hsha : Function.Injective X.sha256) {db db₁ db₂ : Tables} {id : Uuid}
    {c : GoodsReceiptCreate} {r : GoodsReceipt} (hcreated : db.createReceipt X id c = (.ok (r, true), db₁))
    {acts : List ReceiptAct} (hrun : Steps (Tables.nextReceipt X) db₁ acts db₂) (c' : GoodsReceiptCreate) :
    ReplaysNumerically X db₂ c r.id c' ↔ ComparableReplay db₂ c c' :=
  ((storedFor_of_created hcreated).steps hrun).replays_iff hsha

theorem tapNumber_stripped : Text.strip "GR-1" = "GR-1" := by decide

theorem tapNumber_ne : "GR-1" ≠ "" := by decide

/-- A receipt of one tap, with the quantity written in this way. -/
def tapCreate (quantity : Decimal) (hpos : 0 < quantity.toRat) : GoodsReceiptCreate where
  purchaseOrderId := tapPurchase.id
  externalReceiptNumber := "GR-1"
  receivedAt := .first
  lines := [⟨Uuid.ofNat 2, quantity, hpos⟩]
  aware := rfl
  number_stripped := tapNumber_stripped
  number_ne := tapNumber_ne
  lines_ne := by simp
  line_ids := List.nodup_singleton _

/-- Only the order of the tap is there. -/
def tapOrdered : Tables := { Tables.empty with purchaseOrders := [tapPurchase] }

def tapOnePlace : GoodsReceiptCreate := tapCreate ⟨false, 10, -1⟩ (by norm_num [Decimal.toRat, Decimal.int])

def tapTwoPlaces : GoodsReceiptCreate := tapCreate ⟨false, 100, -2⟩ (by norm_num [Decimal.toRat, Decimal.int])

theorem tapOnePlace_created : ∃ r db,
    tapOrdered.createReceipt tapEnv.dumps (Uuid.ofNat 3) tapOnePlace = (.ok (r, true), db) := by
  have hok : (tapOrdered.createReceipt tapEnv.dumps (Uuid.ofNat 3) tapOnePlace).1.toOption.map (·.2) = some true := by
    decide +kernel
  obtain ⟨⟨r, b⟩, hr, hb⟩ := Option.map_eq_some_iff.1 hok
  obtain rfl : b = true := hb
  exact ⟨r, _, Prod.ext (eq_ok_of_toOption hr) rfl⟩

theorem sameRequest_tapPlaces : SameRequest tapOnePlace tapTwoPlaces where
  order := rfl
  number := rfl
  instant := rfl
  lines := by
    intro id q
    simp only [tapOnePlace, tapTwoPlaces, tapCreate, List.mem_singleton, exists_eq_left]
    norm_num [Decimal.toRat, Decimal.int]

/-- One tap received as 1.0 and sent again as 1.00 is a conflict. -/
theorem receipt_replay_places : ∃ r db,
    tapOrdered.createReceipt tapEnv.dumps (Uuid.ofNat 3) tapOnePlace = (.ok (r, true), db) ∧
    SameRequest tapOnePlace tapTwoPlaces ∧
    db.createReceipt tapEnv.dumps (Uuid.ofNat 5) tapTwoPlaces = (.error .conflictingReplay, db) ∧
    ¬ ReplaysNumerically tapEnv.dumps db tapOnePlace r.id tapTwoPlaces := by
  obtain ⟨r, db, hcreated⟩ := tapOnePlace_created
  have hstored := storedFor_of_created hcreated
  have hplaces : ¬ SamePlaces tapOnePlace tapTwoPlaces := by
    intro h
    have hsame := h _ (List.mem_singleton.2 rfl) _ (List.mem_singleton.2 rfl) rfl
    cases hsame
  have hnot : ¬ ReplaysNumerically tapEnv.dumps db tapOnePlace r.id tapTwoPlaces := fun h =>
    hplaces (((hstored.replays_iff sha256_byteChars_injective).1 h).places sameRequest_tapPlaces)
  refine ⟨r, db, hcreated, sameRequest_tapPlaces, ?_, hnot⟩
  obtain ⟨po, hpo, hlines⟩ := hstored.order
  refine (hstored.createReceipt sha256_byteChars_injective sameRequest_tapPlaces.order sameRequest_tapPlaces.number
    ?_ rfl (Uuid.ofNat 5)).2 fun h => hplaces h.2
  intro po' hpo' l hl
  obtain rfl : po = po' := Option.some.inj (hpo.symm.trans hpo')
  obtain rfl := List.mem_singleton.1 hl
  exact hlines (tapOnePlace.lines.get ⟨0, by decide⟩) (List.get_mem _ _)

theorem comparableReplay_tap (db : Tables) : ComparableReplay db tapOnePlace tapOnePlace where
  places := by
    intro _ l hl l' hl' _
    rw [List.mem_singleton.1 hl, List.mem_singleton.1 hl']
  changed := fun _ _ hnot => absurd ⟨rfl, rfl, rfl, fun _ _ => Iff.rfl⟩ hnot

/-- One tap received as 1.0 and sent again just so gets the stored receipt. -/
theorem receipt_replays_iff_tap : ∃ r db,
    tapOrdered.createReceipt tapEnv.dumps (Uuid.ofNat 3) tapOnePlace = (.ok (r, true), db) ∧
    ComparableReplay db tapOnePlace tapOnePlace ∧ ReplaysNumerically tapEnv.dumps db tapOnePlace r.id tapOnePlace := by
  obtain ⟨r, db, hcreated⟩ := tapOnePlace_created
  exact ⟨r, db, hcreated, comparableReplay_tap db,
    (receipt_replays_iff tapEnv.dumps sha256_byteChars_injective hcreated .nil tapOnePlace).2 (comparableReplay_tap db)⟩

end InvoiceOps
