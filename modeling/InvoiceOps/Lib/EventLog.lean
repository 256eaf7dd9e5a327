import Mathlib.Logic.Function.Basic
import InvoiceOps.Lib.Lists
import InvoiceOps.Lib.Run

/-! A table of events that transactions append to, parent row by parent row, and readers that follow the events of
one parent. An append locks the row of the parent, looks for the key of the event, reads the greatest number of the
parent's events and inserts the next one, in four statements; the lock is held until the transaction ends. A
statement sees the committed rows and those of its own transaction. -/

namespace EventLog

structure Event (P K A : Type*) where
  parent : P
  sequence : ℕ
  key : K
  body : A
deriving DecidableEq, Repr

/-- What an append that has not returned has done so far. -/
inductive Phase (P K A : Type*)
  | idle
  /-- The row of the parent is locked. -/
  | locked (p : P) (k : K) (a : A)
  /-- The key has not been found. -/
  | fresh (p : P) (k : K) (a : A)
  /-- The greatest number has been read. -/
  | numbered (p : P) (k : K) (a : A) (last : ℕ)

structure Transaction (P K A : Type*) where
  created : List P
  pending : List (Event P K A)
  phase : Phase P K A

structure Log (P K A : Type*) where
  parents : List P
  committed : List (Event P K A)
  /-- The transaction that holds the lock of a row. -/
  locks : P → Option ℕ
  transactions : ℕ → Option (Transaction P K A)

inductive Act (P K A : Type*)
  | start (i : ℕ)
  /-- A parent row is inserted. -/
  | create (i : ℕ) (p : P)
  /-- Another statement of the transaction locks the row. -/
  | lock (i : ℕ) (p : P)
  | append (i : ℕ) (p : P) (k : K) (a : A)
  | check (i : ℕ)
  | readLast (i : ℕ)
  | insert (i : ℕ)
  | commit (i : ℕ)
  | rollback (i : ℕ)

section

variable {P K A : Type*} [DecidableEq P]

/-- The events of a parent. -/
def ofParent (p : P) (es : List (Event P K A)) : List (Event P K A) := es.filter fun e => e.parent = p

def Log.initial : Log P K A := ⟨[], [], fun _ => none, fun _ => none⟩

section

variable (l : Log P K A) (i : ℕ)

/-- The events of a parent that a statement of the transaction sees. -/
def Log.view (t : Transaction P K A) (p : P) : List (Event P K A) := ofParent p (l.committed ++ t.pending)

def Log.set (t : Transaction P K A) : Log P K A :=
  { l with transactions := Function.update l.transactions i (some t) }

/-- The transaction sees the row, and no other one has locked it. -/
def Log.lockable (t : Transaction P K A) (p : P) : Bool :=
  decide (p ∈ l.parents ++ t.created) && decide (l.locks p = none ∨ l.locks p = some i)

def Log.lock (p : P) : Log P K A := { l with locks := Function.update l.locks p (some i) }

/-- The transaction is over and its locks are released. -/
def Log.finish : Log P K A :=
  { l with
    locks := fun p => if l.locks p = some i then none else l.locks p
    transactions := Function.update l.transactions i none }

end

/-- A step, or `none` where the transaction is not there, is at another statement or waits for a lock. -/
def Log.next [DecidableEq K] (l : Log P K A) : Act P K A → Option (Log P K A)
  | .start i => if (l.transactions i).isNone then some (l.set i ⟨[], [], .idle⟩) else none
  | .create i p => (l.transactions i).bind fun t =>
    match t.phase with
    | .idle => if p ∈ l.parents then none else some (l.set i { t with created := t.created ++ [p] })
    | _ => none
  | .lock i p => (l.transactions i).bind fun t =>
    match t.phase with
    | .idle => if l.lockable i t p then some (l.lock i p) else none
    | _ => none
  | .append i p k a => (l.transactions i).bind fun t =>
    match t.phase with
    | .idle => if l.lockable i t p then some ((l.lock i p).set i { t with phase := .locked p k a }) else none
    | _ => none
  | .check i => (l.transactions i).bind fun t =>
    match t.phase with
    | .locked p k a =>
      some (l.set i { t with phase := if k ∈ (l.view t p).map (·.key) then .idle else .fresh p k a })
    | _ => none
  | .readLast i => (l.transactions i).bind fun t =>
    match t.phase with
    | .fresh p k a =>
      some (l.set i { t with phase := .numbered p k a (((l.view t p).map (·.sequence)).foldl max 0) })
    | _ => none
  | .insert i => (l.transactions i).bind fun t =>
    match t.phase with
    | .numbered p k a last =>
      some (l.set i { t with pending := t.pending ++ [⟨p, last + 1, k, a⟩], phase := .idle })
    | _ => none
  | .commit i => (l.transactions i).bind fun t =>
    match t.phase with
    | .idle =>
      some { l.finish i with parents := l.parents ++ t.created, committed := l.committed ++ t.pending }
    | _ => none
  | .rollback i => (l.transactions i).map fun _ => l.finish i

end

section

variable {P K A : Type*} {es : List (Event P K A)}

/-- Numbers from one on, in order, and no key twice. -/
structure Dense (es : List (Event P K A)) : Prop where
  sequences : es.map (·.sequence) = List.range' 1 es.length
  keys : (es.map (·.key)).Nodup

/-- What an append relies on: it holds the lock, and what it has read is still so. -/
def Phase.Ok (held : P → Prop) (view : P → List (Event P K A)) : Phase P K A → Prop
  | .idle => True
  | .locked p _ _ => held p
  | .fresh p k _ => held p ∧ k ∉ (view p).map (·.key)
  | .numbered p k _ last => held p ∧ k ∉ (view p).map (·.key) ∧ last = (view p).length

theorem Dense.snoc {e : Event P K A} (h : Dense es) (hsequence : e.sequence = es.length + 1)
    (hkey : e.key ∉ es.map (·.key)) : Dense (es ++ [e]) where
  sequences := by
    rw [List.map_append, h.sequences, List.map_singleton, hsequence, List.length_append, List.length_singleton,
      List.range'_concat]
    simp [Nat.add_comm]
  keys := Lists.nodup_map_snoc h.keys hkey

theorem Dense.last (h : Dense es) : (es.map (·.sequence)).foldl max 0 = es.length := by
  rw [h.sequences, Lists.foldl_max_range']

theorem Dense.sequences_first {es' : List (Event P K A)} (h : Dense es) (hes' : es' <+: es) :
    es'.map (·.sequence) = List.range' 1 es'.length := by
  obtain ⟨rest, rfl⟩ := hes'
  have hsequences := h.sequences
  rw [List.map_append, List.length_append, ← List.range'_append_1] at hsequences
  exact List.append_inj_left hsequences (by simp)

theorem Phase.Ok.mono {held held' : P → Prop} {view view' : P → List (Event P K A)} {phase : Phase P K A}
    (h : phase.Ok held view) (hheld : ∀ p, held p → held' p) (hview : ∀ p, held p → view' p = view p) :
    phase.Ok held' view' := by
  cases phase with
  | idle => trivial
  | locked p k a => exact hheld p h
  | fresh p k a => exact ⟨hheld p h.1, by rw [hview p h.1]; exact h.2⟩
  | numbered p k a last => exact ⟨hheld p h.1, by rw [hview p h.1]; exact h.2⟩

end

section

variable {P K A : Type*} [DecidableEq P]

structure Log.Holds (l : Log P K A) (i : ℕ) (t : Transaction P K A) : Prop where
  pending : ∀ e ∈ t.pending, l.locks e.parent = some i
  dense : ∀ p, Dense (l.view t p)
  phase : t.phase.Ok (fun p => l.locks p = some i) (l.view t)

structure Log.Inv (l : Log P K A) : Prop where
  committed : ∀ p, Dense (ofParent p l.committed)
  transactions : ∀ i t, l.transactions i = some t → l.Holds i t

/-- What is committed stays, and nothing is committed before it. -/
structure Log.Grows (l l' : Log P K A) : Prop where
  inv : l'.Inv
  committed : l.committed <+: l'.committed

section

variable {l l' : Log P K A} {i j : ℕ} {t u : Transaction P K A} {p : P} {es es' : List (Event P K A)}

theorem ofParent_append : ofParent p (es ++ es') = ofParent p es ++ ofParent p es' := List.filter_append _ _

/-- What a transaction relies on is kept while it keeps its locks and sees the same under them. -/
theorem Log.Holds.mono (h : l.Holds i t) (hlocks : ∀ p, l.locks p = some i → l'.locks p = some i)
    (hview : ∀ p, l.locks p = some i → l'.view t p = l.view t p) (hdense : ∀ p, Dense (l'.view t p)) :
    l'.Holds i t where
  pending := fun e he => hlocks _ (h.pending e he)
  dense := hdense
  phase := h.phase.mono hlocks hview

/-- A step of one transaction that commits nothing. -/
theorem Log.Inv.set (h : l.Inv) (hcommitted : l'.committed = l.committed)
    (hlocks : ∀ p j, l.locks p = some j → l'.locks p = some j)
    (htransactions : l'.transactions = Function.update l.transactions i (some t)) (ht : l'.Holds i t) : l.Grows l' := by
  refine ⟨⟨hcommitted ▸ h.committed, fun j u hu => ?_⟩, hcommitted ▸ List.prefix_rfl⟩
  rw [htransactions] at hu
  by_cases hj : j = i
  · subst hj
    rw [Function.update_self] at hu
    exact Option.some.inj hu ▸ ht
  · rw [Function.update_of_ne hj] at hu
    have hview : ∀ p, l'.view u p = l.view u p := fun p => by simp only [Log.view, hcommitted]
    refine (h.transactions j u hu).mono (fun p => hlocks p j) (fun p _ => hview p) fun p => ?_
    rw [hview]
    exact (h.transactions j u hu).dense p

/-- A transaction has events of no row but those it has locked. -/
theorem Log.Holds.ofParent_pending (h : l.Holds i t) (hp : l.locks p ≠ some i) : ofParent p t.pending = [] := by
  refine List.filter_eq_nil_iff.2 fun e he hep => hp ?_
  rw [← of_decide_eq_true hep]
  exact h.pending e he

/-- The end of a transaction, whose events `es` are committed or lost. -/
theorem Log.Inv.finish (h : l.Inv) (hlocks : l'.locks = (l.finish i).locks)
    (htransactions : l'.transactions = Function.update l.transactions i none)
    (hcommitted : l'.committed = l.committed ++ es) (hes : ∀ p, l.locks p ≠ some i → ofParent p es = [])
    (hdense : ∀ p, Dense (ofParent p l'.committed)) : l.Grows l' := by
  refine ⟨⟨hdense, fun j u hu => ?_⟩, hcommitted ▸ List.prefix_append _ _⟩
  rw [htransactions] at hu
  have hj : j ≠ i := by
    rintro rfl
    rw [Function.update_self] at hu
    cases hu
  rw [Function.update_of_ne hj] at hu
  have hholds := h.transactions j u hu
  have hview : ∀ p, l.locks p ≠ some i → l'.view u p = l.view u p := by
    intro p hp
    simp only [Log.view, hcommitted, ofParent_append, hes p hp, List.append_nil]
  have hne : ∀ p, l.locks p = some j → l.locks p ≠ some i := by
    intro p hp hi
    exact hj (Option.some.inj (hp.symm.trans hi))
  refine hholds.mono (fun p hp => ?_) (fun p hp => hview p (hne p hp)) fun p => ?_
  · rw [hlocks]
    exact (if_neg (hne p hp)).trans hp
  · by_cases hp : l.locks p = some i
    · -- the other transaction has no event of a row this one has locked
      have hnone : ofParent p u.pending = [] := hholds.ofParent_pending fun hp' => hne p hp' hp
      rw [Log.view, ofParent_append, hnone, List.append_nil]
      exact hdense p
    · rw [hview p hp]
      exact hholds.dense p

theorem Log.lockable_iff : l.lockable i t p = true ↔
    p ∈ l.parents ++ t.created ∧ (l.locks p = none ∨ l.locks p = some i) := by
  simp [Log.lockable]

/-- A lock that is taken takes none from another transaction. -/
theorem Log.locks_lock (h : l.lockable i t p = true) (q : P) (j : ℕ) (hq : l.locks q = some j) :
    (l.lock i p).locks q = some j := by
  by_cases hqp : q = p
  · subst hqp
    rcases (Log.lockable_iff.1 h).2 with hnone | hown
    · rw [hnone] at hq
      cases hq
    · rw [← hq, hown]
      exact Function.update_self _ _ _
  · exact (Function.update_of_ne hqp _ _).trans hq

/-- A transaction that has changed nothing but its phase. -/
theorem Log.Holds.enter (h : l.Holds i t) {phase : Phase P K A}
    (hphase : phase.Ok (fun p => l.locks p = some i) (l.view t)) : (l.set i { t with phase := phase }).Holds i
      { t with phase := phase } :=
  ⟨h.pending, h.dense, hphase⟩

theorem Log.Inv.enter (h : l.Inv) (ht : l.transactions i = some t) {phase : Phase P K A}
    (hphase : phase.Ok (fun p => l.locks p = some i) (l.view t)) : l.Grows (l.set i { t with phase := phase }) :=
  h.set rfl (fun _ _ hlock => hlock) rfl ((h.transactions i t ht).enter hphase)

theorem Log.Holds.insert (h : l.Holds i t) {k : K} {a : A} {last : ℕ} (hphase : t.phase = .numbered p k a last) :
    (l.set i { t with pending := t.pending ++ [⟨p, last + 1, k, a⟩], phase := .idle }).Holds i
      { t with pending := t.pending ++ [⟨p, last + 1, k, a⟩], phase := .idle } := by
  have hok := h.phase
  rw [hphase] at hok
  obtain ⟨hlock, hkey, rfl⟩ := hok
  refine ⟨fun e he => ?_, fun q => ?_, trivial⟩
  · rcases List.mem_append.1 he with he | he
    · exact h.pending e he
    · rw [List.mem_singleton.1 he]
      exact hlock
  · have hview : ofParent q (l.committed ++ (t.pending ++ [⟨p, (l.view t p).length + 1, k, a⟩])) =
        l.view t q ++ ofParent q [⟨p, (l.view t p).length + 1, k, a⟩] := by
      rw [← List.append_assoc, ofParent_append]
      rfl
    rw [Log.view]
    refine (congrArg Dense hview).mpr ?_
    by_cases hq : p = q
    · subst hq
      have hself : ofParent p [⟨p, (l.view t p).length + 1, k, a⟩] = [⟨p, (l.view t p).length + 1, k, a⟩] :=
        List.filter_cons_of_pos (by simp)
      rw [hself]
      exact (h.dense p).snoc rfl hkey
    · have hother : ofParent q [⟨p, (l.view t p).length + 1, k, a⟩] = [] :=
        List.filter_cons_of_neg (by simpa using hq)
      rw [hother, List.append_nil]
      exact h.dense q

theorem Log.Inv.step [DecidableEq K] {a : Act P K A} (h : l.Inv) (hn : l.next a = some l') : l.Grows l' := by
  cases a with
  | start i =>
    simp only [Log.next] at hn
    split at hn
    · obtain rfl := Option.some.inj hn
      refine h.set rfl (fun _ _ hlock => hlock) rfl ⟨by simp, fun p => ?_, trivial⟩
      have hview : (l.set i ⟨[], [], .idle⟩).view ⟨[], [], .idle⟩ p = ofParent p l.committed := by
        rw [Log.view, List.append_nil]
        rfl
      rw [hview]
      exact h.committed p
    · cases hn
  | create i p =>
    obtain ⟨t, ht, hn⟩ := Option.bind_eq_some_iff.1 hn
    have hholds := h.transactions i t ht
    split at hn
    · split at hn
      · cases hn
      · obtain rfl := Option.some.inj hn
        exact h.set rfl (fun _ _ hlock => hlock) rfl ⟨hholds.pending, hholds.dense, hholds.phase⟩
    · cases hn
  | lock i p =>
    obtain ⟨t, ht, hn⟩ := Option.bind_eq_some_iff.1 hn
    have hholds := h.transactions i t ht
    split at hn
    · split at hn
      · rename_i hfree
        obtain rfl := Option.some.inj hn
        have hsame : (l.lock i p).transactions = Function.update l.transactions i (some t) :=
          (Function.update_eq_self_iff.2 ht.symm).symm
        refine h.set rfl (Log.locks_lock hfree) hsame ?_
        exact hholds.mono (fun q => Log.locks_lock hfree q i) (fun _ _ => rfl) hholds.dense
      · cases hn
    · cases hn
  | append i p k a =>
    obtain ⟨t, ht, hn⟩ := Option.bind_eq_some_iff.1 hn
    have hholds := h.transactions i t ht
    split at hn
    · split at hn
      · rename_i hfree
        obtain rfl := Option.some.inj hn
        refine h.set rfl (Log.locks_lock hfree) rfl ⟨fun e he => ?_, hholds.dense, Function.update_self _ _ _⟩
        exact Log.locks_lock hfree _ i (hholds.pending e he)
      · cases hn
    · cases hn
  | check i =>
    obtain ⟨t, ht, hn⟩ := Option.bind_eq_some_iff.1 hn
    have hok := (h.transactions i t ht).phase
    split at hn
    · rename_i p k a hphase
      rw [hphase] at hok
      obtain rfl := Option.some.inj hn
      refine h.enter ht ?_
      split_ifs with hkey
      · trivial
      · exact ⟨hok, hkey⟩
    · cases hn
  | readLast i =>
    obtain ⟨t, ht, hn⟩ := Option.bind_eq_some_iff.1 hn
    have hholds := h.transactions i t ht
    have hok := hholds.phase
    split at hn
    · rename_i p k a hphase
      rw [hphase] at hok
      obtain rfl := Option.some.inj hn
      exact h.enter ht ⟨hok.1, hok.2, (hholds.dense p).last⟩
    · cases hn
  | insert i =>
    obtain ⟨t, ht, hn⟩ := Option.bind_eq_some_iff.1 hn
    split at hn
    · rename_i p k a last hphase
      obtain rfl := Option.some.inj hn
      exact h.set rfl (fun _ _ hlock => hlock) rfl ((h.transactions i t ht).insert hphase)
    · cases hn
  | commit i =>
    obtain ⟨t, ht, hn⟩ := Option.bind_eq_some_iff.1 hn
    have hholds := h.transactions i t ht
    split at hn
    · obtain rfl := Option.some.inj hn
      exact h.finish rfl rfl rfl (fun p => hholds.ofParent_pending) hholds.dense
    · cases hn
  | rollback i =>
    obtain ⟨t, -, rfl⟩ := Option.map_eq_some_iff.1 hn
    exact h.finish rfl rfl (List.append_nil _).symm (fun p _ => rfl) h.committed

theorem Log.inv_initial : (Log.initial : Log P K A).Inv where
  committed := fun _ => ⟨rfl, List.nodup_nil⟩
  transactions := fun _ _ h => by cases h

end

end

/-- A request for the events of a parent, with the loop that answers it. -/
structure Connection (P K A : Type*) where
  /-- The number of the last event sent. -/
  sequence : ℕ
  /-- The events of the last query that are not sent yet. -/
  batch : List (Event P K A)
  /-- The events sent that have not arrived. -/
  wire : List (Event P K A)
  running : Bool

structure Reader (P K A : Type*) where
  received : List (Event P K A)
  /-- The greatest number received. -/
  last : Option ℕ
  connection : Option (Connection P K A)

variable {P K A : Type*}

def Reader.initial : Reader P K A := ⟨[], none, none⟩

/-- The events after a number, in order, not more than `limit`. -/
def after (source : List (Event P K A)) (sequence limit : ℕ) : List (Event P K A) :=
  ((source.filter fun e => sequence < e.sequence).insertionSort fun e e' => e.sequence ≤ e'.sequence).take limit

def Reader.connect (r : Reader P K A) (sequence : ℕ) : Option (Reader P K A) :=
  if r.connection.isNone then some { r with connection := some ⟨sequence, [], [], true⟩ } else none

/-- The loop asks for the next events; it ends when there are none and `ended` holds. -/
def Reader.poll (r : Reader P K A) (source : List (Event P K A)) (limit : ℕ) (ended : Bool) : Option (Reader P K A) :=
  r.connection.bind fun c =>
    if c.running && c.batch.isEmpty then
      let batch := after source c.sequence limit
      some { r with connection := some { c with batch := batch, running := !(ended && batch.isEmpty) } }
    else none

/-- The loop sends the next event; it ends after an event that is the last one. -/
def Reader.send (r : Reader P K A) (final : A → Bool) : Option (Reader P K A) :=
  r.connection.bind fun c =>
    match c.batch with
    | [] => none
    | e :: batch =>
      let rest := if final e.body then [] else batch
      some { r with connection := some ⟨e.sequence, rest, c.wire ++ [e], !final e.body⟩ }

def Reader.receive (r : Reader P K A) : Option (Reader P K A) :=
  r.connection.bind fun c =>
    match c.wire with
    | [] => none
    | e :: wire =>
      let last := max (r.last.getD 0) e.sequence
      some ⟨r.received ++ [e], some last, some { c with wire := wire }⟩

/-- The connection is lost, with what has not arrived. -/
def Reader.disconnect (r : Reader P K A) : Option (Reader P K A) :=
  r.connection.map fun _ => { r with connection := none }

/-- A reader has received the first events, the loop continues after them. -/
structure Reader.Follows (r : Reader P K A) (source : List (Event P K A)) : Prop where
  received : r.received <+: source
  last : r.last.getD 0 = r.received.length
  wire : ∀ c, r.connection = some c → r.received ++ c.wire ++ c.batch <+: source
  sequence : ∀ c, r.connection = some c → c.sequence = (r.received ++ c.wire).length

section

variable {r r' : Reader P K A} {source source' : List (Event P K A)}

theorem Dense.sequence_getElem {es : List (Event P K A)} (h : Dense es) {k : ℕ} (hk : k < es.length) :
    (es.get ⟨k, hk⟩).sequence = k + 1 := by
  have hget : (es.map (·.sequence))[k]? = (List.range' 1 es.length)[k]? := by rw [h.sequences]
  rw [List.getElem?_map, List.getElem?_eq_getElem hk, List.getElem?_range' hk] at hget
  simpa [Nat.add_comm] using Option.some.inj hget

/-- The number of the event that comes after `k` others. -/
theorem Dense.sequence_next {pre : List (Event P K A)} {e : Event P K A} (h : Dense source)
    (hpre : pre ++ [e] <+: source) : e.sequence = pre.length + 1 := by
  have hlt : pre.length < source.length := by
    have hle := hpre.length_le
    simp only [List.length_append, List.length_singleton] at hle
    omega
  have hget : source.get ⟨pre.length, hlt⟩ = e := by
    obtain ⟨rest, rfl⟩ := hpre
    simp
  rw [← hget]
  exact h.sequence_getElem hlt

/-- A query after the first `n` events answers the events that come next. -/
theorem Dense.after_eq (h : Dense source) (n limit : ℕ) : after source n limit = (source.drop n).take limit := by
  have hfilter : (source.filter fun e => n < e.sequence) = source.drop n := by
    have hsplit : source = source.take n ++ source.drop n := (List.take_append_drop n source).symm
    have htake : ((source.take n).filter fun e => n < e.sequence) = [] := by
      refine List.filter_eq_nil_iff.2 fun e he => ?_
      obtain ⟨k, hk, rfl⟩ := List.getElem_of_mem he
      have hlt : k < source.length := by
        have := List.length_take_le' n source
        omega
      have hsequence := h.sequence_getElem hlt
      simp only [List.length_take] at hk
      simp only [List.get_eq_getElem] at hsequence
      simp only [List.getElem_take, hsequence, decide_eq_true_eq]
      omega
    have hdrop : ((source.drop n).filter fun e => n < e.sequence) = source.drop n := by
      refine List.filter_eq_self.2 fun e he => ?_
      obtain ⟨k, hk, rfl⟩ := List.getElem_of_mem he
      have hlt : n + k < source.length := by
        simp only [List.length_drop] at hk
        omega
      have hsequence := h.sequence_getElem hlt
      simp only [List.get_eq_getElem] at hsequence
      simp only [List.getElem_drop, hsequence, decide_eq_true_eq]
      omega
    calc (source.filter fun e => n < e.sequence)
        = ((source.take n ++ source.drop n).filter fun e => n < e.sequence) := by rw [← hsplit]
      _ = source.drop n := by rw [List.filter_append, htake, hdrop, List.nil_append]
  have hsorted : (source.drop n).Pairwise fun e e' => e.sequence ≤ e'.sequence := by
    refine List.Pairwise.drop ?_
    have hrange : (source.map (·.sequence)).Pairwise (· ≤ ·) := by
      rw [h.sequences]
      exact List.pairwise_le_range'
    exact List.pairwise_map.1 hrange
  rw [after, hfilter, hsorted.insertionSort_eq]

theorem Reader.Follows.mono (h : r.Follows source) (hsource : source <+: source') : r.Follows source' where
  received := h.received.trans hsource
  last := h.last
  wire := fun c hc => (h.wire c hc).trans hsource
  sequence := h.sequence

theorem Reader.Follows.connect (h : r.Follows source) (hr' : r.connect (r.last.getD 0) = some r') :
    r'.Follows source := by
  unfold Reader.connect at hr'
  split at hr'
  · obtain rfl := Option.some.inj hr'
    refine ⟨h.received, h.last, fun c hc => ?_, fun c hc => ?_⟩
    · obtain rfl := Option.some.inj hc
      simpa using h.received
    · obtain rfl := Option.some.inj hc
      simpa using h.last
  · cases hr'

theorem Reader.Follows.poll (h : r.Follows source) (hdense : Dense source) {limit : ℕ} {ended : Bool}
    (hr' : r.poll source limit ended = some r') : r'.Follows source := by
  obtain ⟨c, hc, hr'⟩ := Option.bind_eq_some_iff.1 hr'
  split at hr'
  · rename_i hidle
    obtain rfl := Option.some.inj hr'
    have hbatch : c.batch = [] := by simpa using (Bool.and_eq_true_iff.1 hidle).2
    have hwire := h.wire c hc
    have hsequence := h.sequence c hc
    rw [hbatch, List.append_nil] at hwire
    refine ⟨h.received, h.last, fun c' hc' => ?_, fun c' hc' => ?_⟩
    · obtain rfl := Option.some.inj hc'
      -- what has been sent is the source up to the number, the query answers what follows
      have hsent : r.received ++ c.wire = source.take c.sequence := by
        rw [hsequence]
        exact List.prefix_iff_eq_take.1 hwire
      show r.received ++ c.wire ++ after source c.sequence limit <+: source
      rw [hsent, hdense.after_eq, ← List.take_add]
      exact List.take_prefix _ _
    · obtain rfl := Option.some.inj hc'
      exact hsequence
  · cases hr'

theorem Reader.Follows.send (h : r.Follows source) (hdense : Dense source) {final : A → Bool}
    (hr' : r.send final = some r') : r'.Follows source := by
  obtain ⟨c, hc, hr'⟩ := Option.bind_eq_some_iff.1 hr'
  have hwire := h.wire c hc
  split at hr'
  · cases hr'
  · rename_i e batch hbatch
    obtain rfl := Option.some.inj hr'
    rw [hbatch, List.append_cons] at hwire
    have hsent : r.received ++ c.wire ++ [e] <+: source := (List.prefix_append _ _).trans hwire
    refine ⟨h.received, h.last, fun c' hc' => ?_, fun c' hc' => ?_⟩
    · obtain rfl := Option.some.inj hc'
      dsimp only
      rw [← List.append_assoc]
      split_ifs
      · rwa [List.append_nil]
      · exact hwire
    · obtain rfl := Option.some.inj hc'
      dsimp only
      rw [hdense.sequence_next hsent]
      simp [Nat.add_assoc]

theorem Reader.Follows.receive (h : r.Follows source) (hdense : Dense source) (hr' : r.receive = some r') :
    r'.Follows source := by
  obtain ⟨c, hc, hr'⟩ := Option.bind_eq_some_iff.1 hr'
  have hwire := h.wire c hc
  have hsequence := h.sequence c hc
  split at hr'
  · cases hr'
  · rename_i e wire hcwire
    obtain rfl := Option.some.inj hr'
    rw [hcwire, List.append_cons] at hwire hsequence
    have hreceived : r.received ++ [e] <+: source := by
      rw [List.append_assoc] at hwire
      exact (List.prefix_append _ _).trans hwire
    refine ⟨hreceived, ?_, fun c' hc' => ?_, fun c' hc' => ?_⟩
    · rw [Option.getD_some, h.last, hdense.sequence_next hreceived]
      simp
    · obtain rfl := Option.some.inj hc'
      exact hwire
    · obtain rfl := Option.some.inj hc'
      exact hsequence

theorem Reader.Follows.disconnect (h : r.Follows source) (hr' : r.disconnect = some r') : r'.Follows source := by
  obtain ⟨c, -, rfl⟩ := Option.map_eq_some_iff.1 hr'
  refine ⟨h.received, h.last, fun c' hc => ?_, fun c' hc => ?_⟩
  · cases hc
  · cases hc

theorem Reader.follows_initial : (Reader.initial : Reader P K A).Follows source where
  received := List.nil_prefix
  last := rfl
  wire := fun _ hc => by cases hc
  sequence := fun _ hc => by cases hc

end

end EventLog
