import InvoiceOps.Matching.Context

/-! What the fingerprints of a context determine (`matching/context.py`). The replay fingerprint leaves the
allocations of the invoice itself out; what is left of a context is its replay view. Either fingerprint
determines the view, and the view has an entry for every receipt, every reversed receipt and every allocation of
another document. -/

namespace InvoiceOps

open Json

/-- Equal fingerprints are fingerprints of the same envelope, up to the order of keys. -/
theorem same_of_fingerprint {X : Dumps} (hsha : Function.Injective X.sha256) {e e' : Json}
    (h : fingerprint X e = fingerprint X e') : Same e e' :=
  same_of_dumps_eq escapeAscii_code (String.toByteArray_inj.1 (hsha h))

section

variable {X : Dumps}

theorem receiptJson_of_same {r r' : ReceiptQuantityRead} (h : Same (receiptJson X r) (receiptJson X r')) :
    receiptJson X r = receiptJson X r' := by
  have hvalues := Same.values h (by simp only [List.map_cons, List.map_nil]) (by simp)
  simp only [List.map_cons, List.map_nil, List.forall₂_cons, List.Forall₂.nil, and_true] at hvalues
  obtain ⟨hid, hquantity, hreceived⟩ := hvalues
  unfold receiptJson
  rw [same_str hid, same_str hquantity, same_str hreceived]

theorem replayAllocationJson_of_same {a a' : PriorAllocationRead}
    (h : Same (replayAllocationJson a) (replayAllocationJson a')) :
    replayAllocationJson a = replayAllocationJson a' := by
  have hvalues := Same.values h (by simp only [List.map_cons, List.map_nil]) (by simp)
  simp only [List.map_cons, List.map_nil, List.forall₂_cons, List.Forall₂.nil, and_true] at hvalues
  obtain ⟨hid, hrun, hquantity⟩ := hvalues
  unfold replayAllocationJson
  rw [same_str hid, same_str hrun, same_str hquantity]

/-- The dump of an allocation contains what the replay view keeps of it. -/
theorem replayAllocationJson_of_allocationJson {a a' : PriorAllocationRead}
    (h : Same (allocationJson a) (allocationJson a')) : replayAllocationJson a = replayAllocationJson a' := by
  have hvalues := Same.values h (by simp only [List.map_cons, List.map_nil]) (by simp)
  simp only [List.map_cons, List.map_nil, List.forall₂_cons, List.Forall₂.nil, and_true] at hvalues
  obtain ⟨hid, hrun, -, -, -, -, -, hquantity⟩ := hvalues
  unfold replayAllocationJson
  rw [same_str hid, same_str hrun, same_str hquantity]

/-- A line read back from its fields, whatever stands after them. -/
theorem replayLineJson_of_same {prior : PriorAllocationRead → Json} {c c' : ReceiptLineContextRead}
    {extra extra' : List (String × Json)}
    (hprior : ∀ a a', Same (prior a) (prior a') → replayAllocationJson a = replayAllocationJson a')
    (hkeys : extra.map Prod.fst = extra'.map Prod.fst)
    (hnodup : ((lineFields X prior c' ++ extra').map Prod.fst).Nodup)
    (h : Same (.obj (lineFields X prior c ++ extra)) (.obj (lineFields X prior c' ++ extra'))) :
    replayLineJson X c = replayLineJson X c' := by
  have hvalues := Same.values h (by simp only [lineFields, List.map_append, List.map_cons, hkeys]) hnodup
  simp only [lineFields, List.cons_append, List.map_cons, List.forall₂_cons] at hvalues
  obtain ⟨hline, hordered, hactive, hreversed, hreversals, hpriors, hreceived, hprevious, havailable, -⟩ := hvalues
  have hids : ∀ u v : Uuid, Same (.str u.str) (.str v.str) → Json.str u.str = Json.str v.str :=
    fun u v huv => congrArg Json.str (same_str huv)
  unfold replayLineJson lineFields
  rw [same_str hline, same_str hordered, map_eq_of_same_arr (fun _ _ => receiptJson_of_same) hactive,
    map_eq_of_same_arr (fun _ _ => receiptJson_of_same) hreversed, map_eq_of_same_arr hids hreversals,
    map_eq_of_same_arr hprior hpriors, same_str hreceived, same_str hprevious, same_str havailable]

theorem replayLineJson_of_lineJson {c c' : ReceiptLineContextRead} (h : Same (lineJson X c) (lineJson X c')) :
    replayLineJson X c = replayLineJson X c' := by
  unfold lineJson at h
  refine replayLineJson_of_same (fun _ _ => replayAllocationJson_of_allocationJson) ?_ ?_ h
  · simp only [List.map_cons, List.map_nil]
  · simp [lineFields]

theorem replayLineJson_of_replayLineJson {c c' : ReceiptLineContextRead}
    (h : Same (replayLineJson X c) (replayLineJson X c')) : replayLineJson X c = replayLineJson X c' := by
  have hsame : Same (.obj (lineFields X replayAllocationJson c ++ []))
      (.obj (lineFields X replayAllocationJson c' ++ [])) := by
    simpa only [List.append_nil, replayLineJson] using h
  exact replayLineJson_of_same (fun _ _ => replayAllocationJson_of_same) rfl (by simp [lineFields]) hsame

theorem lines_of_same {line : ReceiptLineContextRead → Json} {s s' : ThreeWayContextSnapshot}
    (hline : ∀ c c', Same (line c) (line c') → replayLineJson X c = replayLineJson X c')
    (h : Same (snapshotJson line s) (snapshotJson line s')) :
    s.lines.map (replayLineJson X) = s'.lines.map (replayLineJson X) := by
  have hvalues := Same.values h (by simp only [List.map_cons, List.map_nil]) (by simp)
  simp only [List.map_cons, List.map_nil, List.forall₂_cons, List.Forall₂.nil, and_true] at hvalues
  exact map_eq_of_same_arr hline hvalues.2.2

theorem idsJson_of_same {as bs : List ThreeWayAllocation} (h : Same (idsJson as) (idsJson bs)) :
    idsJson as = idsJson bs := by
  unfold idsJson at h ⊢
  rw [map_eq_of_same_arr (g := fun a : ThreeWayAllocation => Json.str a.id.str)
    (fun _ _ hab => congrArg Json.str (same_str hab)) h]

end

section

variable [DecimalContext] (X : Dumps) (receipts receipts' : List GoodsReceipt)
  (allocations allocations' : List ThreeWayAllocation)
  (po : PurchaseOrder) (policy : ThreeWayMatchingPolicy) (documentId : Uuid)

/-- What the replay fingerprint is taken of: the lines without the allocations of the invoice, and the ids of
the other allocations. -/
def replayView : List Json × Json :=
  ((snapshotOf receipts allocations po policy documentId).lines.map (replayLineJson X),
    idsJson (priorAllocations allocations documentId))

variable {X receipts receipts' allocations allocations' po policy documentId}

theorem replayEnvelope_of_view
    (h : replayView X receipts allocations po policy documentId =
      replayView X receipts' allocations' po policy documentId) :
    replayEnvelope X receipts allocations po policy documentId =
      replayEnvelope X receipts' allocations' po policy documentId := by
  obtain ⟨hlines, hids⟩ := Prod.mk.inj h
  unfold replayEnvelope snapshotJson
  rw [hlines, hids]
  rfl

theorem view_of_replay
    (h : Same (replayEnvelope X receipts allocations po policy documentId)
      (replayEnvelope X receipts' allocations' po policy documentId)) :
    replayView X receipts allocations po policy documentId =
      replayView X receipts' allocations' po policy documentId := by
  have hvalues := Same.values h (by simp only [List.map_cons, List.map_nil]) (by simp)
  simp only [List.map_cons, List.map_nil, List.forall₂_cons, List.Forall₂.nil, and_true] at hvalues
  obtain ⟨-, hsnapshot, hids, -⟩ := hvalues
  exact Prod.ext (lines_of_same (fun _ _ => replayLineJson_of_replayLineJson) hsnapshot) (idsJson_of_same hids)

/-- The fingerprint of the whole context determines the view, too. -/
theorem view_of_context
    (h : Same (contextEnvelope X receipts allocations po policy documentId)
      (contextEnvelope X receipts' allocations' po policy documentId)) :
    replayView X receipts allocations po policy documentId =
      replayView X receipts' allocations' po policy documentId := by
  have hvalues := Same.values h (by simp only [List.map_cons, List.map_nil]) (by simp)
  simp only [List.map_cons, List.map_nil, List.forall₂_cons, List.Forall₂.nil, and_true] at hvalues
  obtain ⟨-, hsnapshot, hids, -⟩ := hvalues
  exact Prod.ext (lines_of_same (fun _ _ => replayLineJson_of_lineJson) hsnapshot) (idsJson_of_same hids)

omit [DecimalContext] in
theorem nodup_str {α : Type} {id : α → Uuid} {xs : List α} (hnd : (xs.map id).Nodup) :
    (xs.map fun x => (id x).str).Nodup := by
  have hmap : xs.map (fun x => (id x).str) = (xs.map id).map Uuid.str := by simp
  rw [hmap]
  exact hnd.map fun _ _ => Uuid.str_inj

omit [DecimalContext] in
theorem priorAllocations_sortById (hnd : (allocations.map (·.id)).Nodup) :
    priorAllocations (sortById (·.id) allocations) documentId =
      sortById (·.id) (priorAllocations allocations documentId) := by
  have htotal : Std.Total fun s t : String => s ≤ t := ⟨String.le_total⟩
  have htrans : IsTrans String fun s t => s ≤ t := ⟨fun _ _ _ => String.le_trans⟩
  have hantisymm : Std.Antisymm fun s t : String => s ≤ t := ⟨fun _ _ => String.le_antisymm⟩
  exact Lists.filter_insertionSort (r := fun s t : String => s ≤ t) (nodup_str hnd) _

/-- The view does not change with the allocations of the invoice. -/
theorem replayView_congr (hnd : (allocations.map (·.id)).Nodup) (hnd' : (allocations'.map (·.id)).Nodup)
    (hprior : priorAllocations allocations documentId = priorAllocations allocations' documentId) :
    replayView X receipts allocations po policy documentId =
      replayView X receipts allocations' po policy documentId := by
  have hsorted : priorAllocations (sortById (·.id) allocations) documentId =
      priorAllocations (sortById (·.id) allocations') documentId := by
    rw [priorAllocations_sortById hnd, priorAllocations_sortById hnd', hprior]
  unfold replayView
  rw [hprior]
  refine Prod.ext ?_ rfl
  simp only [snapshotOf, List.map_map]
  refine List.map_congr_left fun line _ => ?_
  simp only [Function.comp_apply, replayLineJson, lineFields, lineContext, hsorted]

/-- A view has an entry for every receipt on a line and for every allocation of another document. -/
theorem lengths_of_view
    (h : replayView X receipts allocations po policy documentId =
      replayView X receipts' allocations' po policy documentId) :
    (∀ line ∈ po.lines, (activeOn receipts line.id).length = (activeOn receipts' line.id).length ∧
      (reversedOn receipts line.id).length = (reversedOn receipts' line.id).length) ∧
    (priorAllocations allocations documentId).length = (priorAllocations allocations' documentId).length := by
  obtain ⟨hlines, hids⟩ := Prod.mk.inj h
  constructor
  · intro line hline
    simp only [snapshotOf, List.map_map] at hlines
    have heq := List.map_inj_left.1 hlines line hline
    simp only [Function.comp_apply, replayLineJson, lineFields, lineContext, Json.obj.injEq, List.cons.injEq,
      Prod.mk.injEq, true_and, and_true, Json.arr.injEq] at heq
    obtain ⟨hactive, hreversed, -⟩ := heq
    have hlength := congrArg List.length hactive
    have hlength' := congrArg List.length hreversed
    simp only [List.length_map, (perm_sortById _ _).length_eq] at hlength hlength'
    exact ⟨hlength, hlength'⟩
  · simp only [idsJson, Json.arr.injEq] at hids
    have hlength := congrArg List.length hids
    simpa only [List.length_map, (perm_sortById _ _).length_eq] using hlength

end

end InvoiceOps
