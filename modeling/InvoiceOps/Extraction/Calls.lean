import InvoiceOps.Extraction.Supporting

/-! The calls of the vision model for a supporting document. A delivery holds the row of its call from the moment it
reads it until the outcome is committed, so that another one finds the outcome and does not ask the model again. When
the text of the document is always the same, so is the output every delivery writes: the first one from the answer,
the others from the candidate that is stored. -/

namespace InvoiceOps

open StateMachine

section

variable {D O C : Type}

/-- The call has an outcome that is replayed. -/
def SupportingModelCall.decided (call : SupportingModelCall C) : Bool :=
  match call.status, call.candidateJson with
  | .succeeded, some _ => true
  | .failed, _ => true
  | _, _ => false

/-- What a delivery is told about the text of its document. -/
def SupportingAct.text : SupportingAct D C → Option (Except ExtractionError D)
  | .complete _ text | .route _ text => some text
  | _ => none

variable (E : SupportingEnv D O C) (w : SupportingWorld D O C)

/-- The output a call with an outcome leads to. -/
def SupportingEnv.outcome (baseline : O) (text : D) (call : SupportingModelCall C) : O :=
  match call.status, call.candidateJson with
  | .succeeded, some candidate => (E.fuse baseline candidate text).getD baseline
  | _, _ => baseline

/-- The fingerprint of the call for which a step asks the provider. -/
def SupportingWorld.invokes : SupportingAct D C → Option String
  | .answer i _ => w.deliveries[i]?.bind fun d =>
    match d.phase with
    | .locked _ _ reasons call => if call.decided then none else some (E.fingerprint reasons)
    | _ => none
  | _ => none

/-- The output a step writes to the hybrid run. -/
def SupportingWorld.writes : SupportingAct D C → Option O
  | .write i => w.deliveries[i]?.bind fun d =>
    match d.phase with
    | .writing output _ => some output
    | _ => none
  | _ => none

end

section

variable {D O C : Type} (E : SupportingEnv D O C) (x : Except ExtractionError D)

/-- The text of the document, and its deterministic output. -/
def SupportingEnv.Reads (text : D) (baseline : O) : Prop := x = .ok text ∧ E.extract text = .ok baseline

/-- What holds of a delivery that stands in a phase, as long as every delivery is told the same text. -/
def SupportingWorld.PhaseOk (w : SupportingWorld D O C) (i : ℕ) : DeliveryPhase D O C → Prop
  | .extracted output => ∀ baseline ∈ output, ∃ text, E.Reads x text baseline
  | .searched baseline _ => ∃ text, E.Reads x text baseline
  | .routed baseline text reasons _ | .opened baseline text reasons | .calling baseline text reasons =>
    E.Reads x text baseline ∧ reasons = E.route baseline text
  | .locked baseline text reasons call => E.Reads x text baseline ∧ reasons = E.route baseline text ∧
    w.locks (E.fingerprint reasons) = some i ∧ w.calls (E.fingerprint reasons) = some call
  | .writing output _ => ∃ baseline text call, E.Reads x text baseline ∧
    w.calls (E.fingerprint (E.route baseline text)) = some call ∧ call.decided = true ∧
    output = E.outcome baseline text call
  | _ => True

/-- A baseline run that has succeeded has the output of the text, and a call that has succeeded a candidate. -/
structure CallInv (w : SupportingWorld D O C) : Prop where
  baseline : ∀ run, w.runs .baseline = some run → run.status = .succeeded →
    ∀ output ∈ run.outputJson, ∃ text, E.Reads x text output
  calls : ∀ f call, w.calls f = some call → call.status ≠ .processing → call.decided = true
  phases : ∀ i d, w.deliveries[i]? = some d → w.PhaseOk E x i d.phase

/-- A step keeps this, and the calls that are decided. -/
structure CallStep (w w' : SupportingWorld D O C) : Prop where
  inv : CallInv E x w'
  decided : ∀ f call, w.calls f = some call → call.decided = true → w'.calls f = some call

/-- What a step of delivery `i` leaves to the others: their locks, and the calls that are decided or locked by
another one. -/
structure SupportingWorld.Shares (w : SupportingWorld D O C) (i : ℕ) (w' : SupportingWorld D O C) : Prop where
  locks : ∀ f j, j ≠ i → w.locks f = some j → w'.locks f = some j
  calls : ∀ f call, w.calls f = some call → w'.calls f = some call ∨ w.locks f = some i ∧ call.decided = false

end

section

variable {D O C : Type} {E : SupportingEnv D O C} {x : Except ExtractionError D} {w w' : SupportingWorld D O C}
  {a : SupportingAct D C} {i j : ℕ} {d : Delivery D O C} {phase : DeliveryPhase D O C}

theorem SupportingEnv.Reads.unique {text text' : D} {baseline baseline' : O} (h : E.Reads x text baseline)
    (h' : E.Reads x text' baseline') : text' = text ∧ baseline' = baseline := by
  obtain rfl := Except.ok.inj (h'.1.symm.trans h.1)
  exact ⟨rfl, Except.ok.inj (h'.2.symm.trans h.2)⟩

theorem SupportingWorld.Shares.decided (h : w.Shares i w') {f : String} {call : SupportingModelCall C}
    (hcall : w.calls f = some call) (hdecided : call.decided = true) : w'.calls f = some call := by
  rcases h.calls f call hcall with hsame | ⟨-, hnot⟩
  · exact hsame
  · rw [hdecided] at hnot
    cases hnot

theorem SupportingWorld.PhaseOk.share (h : w.PhaseOk E x j phase) (hshares : w.Shares i w') (hne : j ≠ i) :
    w'.PhaseOk E x j phase := by
  cases phase with
  | locked baseline text reasons call =>
    obtain ⟨hreads, hreasons, hlock, hcall⟩ := h
    refine ⟨hreads, hreasons, hshares.locks _ j hne hlock, ?_⟩
    rcases hshares.calls _ call hcall with hsame | ⟨hother, -⟩
    · exact hsame
    · exact absurd (Option.some.inj (hlock.symm.trans hother)) hne
  | writing output usedOcr =>
    obtain ⟨baseline, text, call, hreads, hcall, hdecided, houtput⟩ := h
    exact ⟨baseline, text, call, hreads, hshares.decided hcall hdecided, hdecided, houtput⟩
  | _ => exact h

theorem CallInv.enter (h : CallInv E x w) (hd : w.deliveries[i]? = some d)
    (hdeliveries : w'.deliveries = w.deliveries.set i { d with phase := phase }) (hshares : w.Shares i w')
    (hbaseline : ∀ run, w'.runs .baseline = some run → run.status = .succeeded →
      ∀ output ∈ run.outputJson, ∃ text, E.Reads x text output)
    (hcalls : ∀ f call, w'.calls f = some call → call.status ≠ .processing → call.decided = true)
    (hphase : w'.PhaseOk E x i phase) : CallStep E x w w' := by
  refine ⟨⟨hbaseline, hcalls, fun j d' hj => ?_⟩, fun f call => hshares.decided⟩
  rw [hdeliveries] at hj
  by_cases hji : i = j
  · subst hji
    rw [List.getElem?_set_self (List.getElem?_eq_some_iff.1 hd).1] at hj
    rw [← Option.some.inj hj]
    exact hphase
  · rw [List.getElem?_set_ne hji] at hj
    exact (h.phases j d' hj).share hshares (Ne.symm hji)

theorem shares_refl (hlocks : w'.locks = w.locks) (hcalls : w'.calls = w.calls) : w.Shares i w' :=
  ⟨fun _ _ _ hlock => hlocks ▸ hlock, fun _ _ hcall => .inl (hcalls ▸ hcall)⟩

theorem shares_release (hlocks : w'.locks = (w.release i).locks) (hcalls : w'.calls = w.calls) : w.Shares i w' := by
  refine ⟨fun f j hne hlock => ?_, fun _ _ hcall => .inl (hcalls ▸ hcall)⟩
  rw [hlocks]
  simp only [SupportingWorld.release, hlock, Option.some.injEq, hne, if_false]

theorem CallInv.quiet (h : CallInv E x w) (hd : w.deliveries[i]? = some d)
    (hdeliveries : w'.deliveries = w.deliveries.set i { d with phase := phase }) (hshares : w.Shares i w')
    (hruns : w'.runs .baseline = w.runs .baseline) (hcalls : w'.calls = w.calls) (hphase : w'.PhaseOk E x i phase) :
    CallStep E x w w' :=
  h.enter hd hdeliveries hshares (hruns ▸ h.baseline) (hcalls ▸ h.calls) hphase

theorem CallInv.checkRun (h : CallInv E x w) (hd : w.deliveries[i]? = some d) {k : SupportingExtractor}
    {working : DeliveryPhase D O C} {served : SupportingExtractionRun O → DeliveryPhase D O C}
    (hworking : ∀ w' : SupportingWorld D O C, w'.locks = w.locks → w'.calls = w.calls → w'.PhaseOk E x i working)
    (hserved : ∀ run (w' : SupportingWorld D O C), w.runs k = some run → run.status = .succeeded →
      w'.PhaseOk E x i (served run)) :
    CallStep E x w (w.checkRun i d k working served) := by
  unfold SupportingWorld.checkRun
  cases hrun : w.runs k with
  | none =>
    refine h.enter hd rfl (shares_refl rfl rfl) (fun run hrun' hstatus => ?_) h.calls (hworking _ rfl rfl)
    by_cases hk : k = .baseline
    · subst hk
      have hrun' : Function.update w.runs .baseline (some (.created O)) .baseline = some run := hrun'
      rw [Function.update_self] at hrun'
      rw [← Option.some.inj hrun'] at hstatus
      cases hstatus
    · have hrun' : Function.update w.runs k (some (.created O)) .baseline = some run := hrun'
      rw [Function.update_of_ne (Ne.symm hk)] at hrun'
      exact h.baseline run hrun' hstatus
  | some run =>
    refine h.quiet hd rfl (shares_refl rfl rfl) rfl rfl ?_
    split_ifs with hstatus
    · exact hserved run _ hrun hstatus
    · exact hworking _ rfl rfl

theorem CallInv.complete (h : CallInv E x w) (hd : w.deliveries[i]? = some d) {text : Except ExtractionError D}
    (htext : text = x) : CallStep E x w (w.complete E i d text) := by
  subst htext
  have hupdate : ∀ (f : SupportingExtractionRun O → SupportingExtractionRun O) run,
      Function.update w.runs .baseline ((w.runs .baseline).map f) .baseline = some run → ∃ run₀, run = f run₀ := by
    intro f run hrun
    rw [Function.update_self] at hrun
    obtain ⟨run₀, -, rfl⟩ := Option.map_eq_some_iff.1 hrun
    exact ⟨run₀, rfl⟩
  unfold SupportingWorld.complete
  split
  · next t output hok =>
    have hreads : E.Reads text t output := by
      cases text with
      | error e => cases hok
      | ok t' =>
        have hok : (E.extract t').map (fun output => (t', output)) = .ok (t, output) := hok
        cases hx : E.extract t' with
        | error e =>
          rw [hx] at hok
          cases hok
        | ok output' =>
          rw [hx] at hok
          obtain ⟨rfl, rfl⟩ := Prod.mk.inj (Except.ok.inj hok)
          exact ⟨rfl, hx⟩
    refine h.enter hd rfl (shares_refl rfl rfl) (fun run hrun _ o ho => ?_) h.calls ?_
    · obtain ⟨run₀, rfl⟩ := hupdate _ run hrun
      obtain rfl := Option.some.inj ho
      exact ⟨t, hreads⟩
    · unfold Delivery.afterBaseline
      split
      · trivial
      · intro baseline hbaseline
        obtain rfl := Option.some.inj hbaseline
        exact ⟨t, hreads⟩
  · refine h.enter hd rfl (shares_refl rfl rfl) (fun run hrun hstatus => ?_) h.calls trivial
    obtain ⟨run₀, rfl⟩ := hupdate _ run hrun
    cases hstatus

theorem CallInv.search (h : CallInv E x w) (hd : w.deliveries[i]? = some d) {output : Option O}
    (hphase : d.phase = .extracted output) : CallStep E x w (w.search i d output) := by
  have hok := h.phases i d hd
  rw [hphase] at hok
  unfold SupportingWorld.search
  split
  · exact h.quiet hd rfl (shares_refl rfl rfl) rfl rfl trivial
  · next baseline =>
    split
    · exact h.quiet hd rfl (shares_refl rfl rfl) rfl rfl (hok baseline rfl)
    · refine h.quiet hd rfl (shares_refl rfl rfl) rfl rfl ?_
      split_ifs
      · trivial
      · exact hok baseline rfl

theorem CallInv.route (h : CallInv E x w) (hd : w.deliveries[i]? = some d) {baseline : O} {loaded : Bool}
    {text : Except ExtractionError D} (hphase : d.phase = .searched baseline loaded) (htext : text = x) :
    CallStep E x w (w.route E i d baseline loaded text) := by
  have hok := h.phases i d hd
  rw [hphase] at hok
  obtain ⟨t, hx, hextract⟩ := hok
  subst htext
  unfold SupportingWorld.route
  split
  · exact h.quiet hd rfl (shares_refl rfl rfl) rfl rfl trivial
  · next t' =>
    obtain rfl := Except.ok.inj hx
    split
    · exact h.quiet hd rfl (shares_refl rfl rfl) rfl rfl trivial
    · exact h.quiet hd rfl (shares_refl rfl rfl) rfl rfl ⟨⟨rfl, hextract⟩, rfl⟩

theorem CallInv.openCall (h : CallInv E x w) (hd : w.deliveries[i]? = some d) {baseline : O} {text : D}
    {reasons : List String} (hphase : d.phase = .opened baseline text reasons) :
    CallStep E x w (w.openCall E i d baseline text reasons) := by
  have hok := h.phases i d hd
  rw [hphase] at hok
  unfold SupportingWorld.openCall
  split
  · exact h.quiet hd rfl (shares_refl rfl rfl) rfl rfl hok
  · next hnone =>
    refine h.enter hd rfl ⟨fun _ _ _ hlock => hlock, fun f call hcall => .inl ?_⟩ h.baseline (fun f call hcall hstatus => ?_) hok
    · refine (Function.update_of_ne ?_ _ _).trans hcall
      rintro rfl
      rw [hnone] at hcall
      cases hcall
    · have hcall : Function.update w.calls (E.fingerprint reasons) (some ⟨.processing, none, none⟩) f = some call := hcall
      by_cases hf : f = E.fingerprint reasons
      · subst hf
        rw [Function.update_self] at hcall
        rw [← Option.some.inj hcall] at hstatus
        exact absurd rfl hstatus
      · rw [Function.update_of_ne hf] at hcall
        exact h.calls f call hcall hstatus

theorem CallInv.lockCall (h : CallInv E x w) (hd : w.deliveries[i]? = some d) {baseline : O} {text : D}
    {reasons : List String} (hphase : d.phase = .calling baseline text reasons)
    (hn : w.lockCall E i d baseline text reasons = some w') : CallStep E x w w' := by
  have hok := h.phases i d hd
  rw [hphase] at hok
  unfold SupportingWorld.lockCall at hn
  split_ifs at hn with hfree
  split at hn
  · obtain rfl := Option.some.inj hn
    exact h.quiet hd rfl (shares_refl rfl rfl) rfl rfl trivial
  · next call hcall =>
    obtain rfl := Option.some.inj hn
    refine h.quiet hd rfl ⟨fun f j _ hlock => ?_, fun _ _ hcall => .inl hcall⟩ rfl rfl
      ⟨hok.1, hok.2, Function.update_self _ _ _, hcall⟩
    refine (Function.update_of_ne ?_ _ _).trans hlock
    rintro rfl
    rw [hfree] at hlock
    cases hlock

/-- An outcome is committed for the call that the delivery holds, and its lock is free. -/
theorem CallInv.decide (h : CallInv E x w) (hd : w.deliveries[i]? = some d) {baseline : O} {text : D}
    {reasons : List String} {call call' : SupportingModelCall C} {output : O} {usedOcr : Bool}
    (hphase : d.phase = .locked baseline text reasons call) (hopen : call.decided = false)
    (hdecided : call'.decided = true) (houtput : output = E.outcome baseline text call') :
    CallStep E x w (((w.storeCall (E.fingerprint reasons) call').release i).enter i d (.writing output usedOcr)) := by
  have hok := h.phases i d hd
  rw [hphase] at hok
  obtain ⟨hreads, rfl, hlock, hcall⟩ := hok
  refine h.enter hd rfl ⟨fun f j hne hlock' => ?_, fun f call₀ hcall₀ => ?_⟩ h.baseline (fun f call₀ hcall₀ hstatus => ?_)
    ⟨baseline, text, call', hreads, Function.update_self _ _ _, hdecided, houtput⟩
  · have hshares : w.Shares i (w.release i) := shares_release rfl rfl
    exact hshares.locks f j hne hlock'
  · by_cases hf : f = E.fingerprint (E.route baseline text)
    · subst hf
      obtain rfl := Option.some.inj (hcall.symm.trans hcall₀)
      exact .inr ⟨hlock, hopen⟩
    · exact .inl ((Function.update_of_ne hf _ _).trans hcall₀)
  · have hcall₀ : Function.update w.calls (E.fingerprint (E.route baseline text)) (some call') f = some call₀ := hcall₀
    by_cases hf : f = E.fingerprint (E.route baseline text)
    · subst hf
      rw [Function.update_self] at hcall₀
      rw [← Option.some.inj hcall₀]
      exact hdecided
    · rw [Function.update_of_ne hf] at hcall₀
      exact h.calls f call₀ hcall₀ hstatus

theorem CallInv.answer (h : CallInv E x w) (hd : w.deliveries[i]? = some d) {baseline : O} {text : D}
    {reasons : List String} {call : SupportingModelCall C} {response : Except String C}
    (hphase : d.phase = .locked baseline text reasons call) :
    CallStep E x w (w.answer E i d baseline text reasons call response) := by
  have hok := h.phases i d hd
  rw [hphase] at hok
  obtain ⟨hreads, hreasons, -, hcall⟩ := hok
  rw [hreasons] at hcall
  unfold SupportingWorld.answer
  split
  · next hstatus hcandidate =>
    refine h.quiet hd rfl (shares_refl rfl rfl) rfl rfl ⟨baseline, text, call, hreads, hcall, ?_, ?_⟩
    · simp only [SupportingModelCall.decided, hstatus, hcandidate]
    · simp only [SupportingEnv.outcome, hstatus, hcandidate]
  · next hstatus =>
    refine h.quiet hd rfl (shares_refl rfl rfl) rfl rfl ⟨baseline, text, call, hreads, hcall, ?_, ?_⟩
    · simp only [SupportingModelCall.decided, hstatus]
    · simp only [SupportingEnv.outcome, hstatus]
  · next hfailed hsucceeded =>
    have hopen : call.decided = false := by
      unfold SupportingModelCall.decided
      split
      · next candidate hstatus hcandidate => exact (hsucceeded candidate hstatus hcandidate).elim
      · next hstatus => exact (hfailed hstatus).elim
      · rfl
    split
    · next candidate output hresponse =>
      refine h.decide hd hphase hopen rfl ?_
      cases response with
      | error code => cases hresponse
      | ok candidate' =>
        obtain ⟨rfl, hfuse⟩ := Prod.mk.inj (Except.ok.inj hresponse)
        simp only [SupportingEnv.outcome, hfuse, Option.getD_some]
    · exact h.decide hd hphase hopen rfl rfl
    · exact h.decide hd hphase hopen rfl rfl

theorem CallInv.step (h : CallInv E x w) (htext : ∀ t ∈ a.text, t = x) (hn : w.next E a = some w') :
    CallStep E x w w' := by
  cases a with
  | deliver service retries =>
    simp only [SupportingWorld.next] at hn
    split_ifs at hn
    obtain rfl := Option.some.inj hn
    refine ⟨⟨h.baseline, h.calls, fun i d hd => ?_⟩, fun _ _ hcall _ => hcall⟩
    rw [List.getElem?_append] at hd
    split_ifs at hd with hlt
    · exact h.phases i d hd
    · have hmem := List.mem_of_getElem? hd
      rw [List.mem_singleton.1 hmem]
      trivial
  | check i =>
    obtain ⟨d, hd, hn⟩ := Option.bind_eq_some_iff.1 hn
    split at hn
    · refine Option.some.inj hn ▸ h.checkRun hd (fun _ _ _ => trivial) fun run w' hrun hstatus => ?_
      unfold Delivery.afterBaseline
      split
      · trivial
      · exact h.baseline run hrun hstatus
    · cases hn
  | complete i text =>
    obtain ⟨d, hd, hn⟩ := Option.bind_eq_some_iff.1 hn
    split at hn
    · exact Option.some.inj hn ▸ h.complete hd (htext text rfl)
    · cases hn
  | search i =>
    obtain ⟨d, hd, hn⟩ := Option.bind_eq_some_iff.1 hn
    split at hn
    · next hphase => exact Option.some.inj hn ▸ h.search hd hphase
    · cases hn
  | route i text =>
    obtain ⟨d, hd, hn⟩ := Option.bind_eq_some_iff.1 hn
    split at hn
    · next hphase => exact Option.some.inj hn ▸ h.route hd hphase (htext text rfl)
    · cases hn
  | openRun i =>
    obtain ⟨d, hd, hn⟩ := Option.bind_eq_some_iff.1 hn
    split at hn
    · next baseline text reasons loaded hphase =>
      have hok := h.phases i d hd
      rw [hphase] at hok
      obtain rfl := Option.some.inj hn
      unfold SupportingWorld.openRun
      split_ifs
      · exact h.quiet hd rfl (shares_refl rfl rfl) rfl rfl hok
      · exact h.checkRun hd (fun _ _ _ => hok) fun _ _ _ _ => trivial
    · cases hn
  | openCall i =>
    obtain ⟨d, hd, hn⟩ := Option.bind_eq_some_iff.1 hn
    split at hn
    · next hphase => exact Option.some.inj hn ▸ h.openCall hd hphase
    · cases hn
  | lockCall i =>
    obtain ⟨d, hd, hn⟩ := Option.bind_eq_some_iff.1 hn
    split at hn
    · next hphase => exact h.lockCall hd hphase hn
    · cases hn
  | answer i response =>
    obtain ⟨d, hd, hn⟩ := Option.bind_eq_some_iff.1 hn
    split at hn
    · next hphase => exact Option.some.inj hn ▸ h.answer hd hphase
    · cases hn
  | write i =>
    obtain ⟨d, hd, hn⟩ := Option.bind_eq_some_iff.1 hn
    split at hn
    · exact Option.some.inj hn ▸ h.quiet hd rfl (shares_release rfl rfl) rfl rfl trivial
    · cases hn
  | raise i =>
    obtain ⟨d, hd, hn⟩ := Option.bind_eq_some_iff.1 hn
    split_ifs at hn
    exact Option.some.inj hn ▸ h.quiet hd rfl (shares_release rfl rfl) rfl rfl trivial
  | retry i =>
    obtain ⟨d, hd, hn⟩ := Option.bind_eq_some_iff.1 hn
    split at hn
    · obtain rfl := Option.some.inj hn
      unfold SupportingWorld.retry
      split_ifs
      · exact h.checkRun hd (fun _ _ _ => trivial) fun _ _ _ _ => trivial
      · exact h.quiet hd rfl (shares_refl rfl rfl) rfl rfl trivial
    · cases hn
  | mark i =>
    obtain ⟨d, hd, hn⟩ := Option.bind_eq_some_iff.1 hn
    split at hn
    · obtain rfl := Option.some.inj hn
      refine h.enter hd rfl (shares_refl rfl rfl) (fun run hrun hstatus => ?_) h.calls trivial
      have hrun : Function.update w.runs .baseline ((w.runs .baseline).map _) .baseline = some run := hrun
      rw [Function.update_self] at hrun
      obtain ⟨run₀, -, rfl⟩ := Option.map_eq_some_iff.1 hrun
      cases hstatus
    · cases hn
  | lose i =>
    obtain ⟨d, hd, hn⟩ := Option.bind_eq_some_iff.1 hn
    exact Option.some.inj hn ▸ h.quiet hd rfl (shares_release rfl rfl) rfl rfl trivial

theorem CallInv.not_invokes (h : CallInv E x w) {f : String} {call : SupportingModelCall C}
    (hcall : w.calls f = some call) (hdecided : call.decided = true) : w.invokes E a ≠ some f := by
  intro hinvokes
  cases a with
  | answer i response =>
    obtain ⟨d, hd, hinvokes⟩ := Option.bind_eq_some_iff.1 hinvokes
    split at hinvokes
    · next baseline text reasons call' hphase =>
      split_ifs at hinvokes with hopen
      have hok := h.phases i d hd
      rw [hphase] at hok
      obtain ⟨-, -, -, hcall'⟩ := hok
      rw [Option.some.inj hinvokes] at hcall'
      obtain rfl := Option.some.inj (hcall.symm.trans hcall')
      exact hopen hdecided
    · cases hinvokes
  | _ => cases hinvokes

theorem CallInv.writes (h : CallInv E x w) {output : O} (hwrites : w.writes a = some output) :
    ∃ baseline text call, E.Reads x text baseline ∧ w.calls (E.fingerprint (E.route baseline text)) = some call ∧
      call.decided = true ∧ output = E.outcome baseline text call := by
  cases a with
  | write i =>
    obtain ⟨d, hd, hwrites⟩ := Option.bind_eq_some_iff.1 hwrites
    split at hwrites
    · next output' usedOcr hphase =>
      have hok := h.phases i d hd
      rw [hphase] at hok
      exact Option.some.inj hwrites ▸ hok
    · cases hwrites
  | _ => cases hwrites

theorem callInv_initial : CallInv E x (.initial D O C) := by
  refine ⟨fun run hrun => ?_, fun f call hcall => ?_, fun i d hd => ?_⟩
  · cases hrun
  · cases hcall
  · cases hd

theorem decided_of_steps {acts : List (SupportingAct D C)} (h : Steps (SupportingWorld.next E) w acts w')
    (htext : ∀ a ∈ acts, ∀ t ∈ a.text, t = x) (hinv : CallInv E x w) : CallStep E x w w' := by
  refine h.invariant_of_forall (P := fun a => ∀ t ∈ a.text, t = x) (I := CallStep E x w) (fun s a s' ha hs hn => ?_) htext
    ⟨hinv, fun _ _ hcall _ => hcall⟩
  have hstep := hs.inv.step ha hn
  exact ⟨hstep.inv, fun f call hcall hdecided => hstep.decided f call (hs.decided f call hcall hdecided) hdecided⟩

end

/-- Over every interleaving of deliveries of a supporting document whose text is always the same: once the outcome of
a call is committed, no delivery asks the provider for its fingerprint again; and all deliveries that write the
hybrid run write the same output. -/
theorem provider_asked_once {D O C : Type} (E : SupportingEnv D O C) (x : Except ExtractionError D)
    {acts acts' : List (SupportingAct D C)} {w w' : SupportingWorld D O C}
    (h : Steps (SupportingWorld.next E) (.initial D O C) acts w) (hlater : Steps (SupportingWorld.next E) w acts' w')
    (htext : ∀ a ∈ acts ++ acts', ∀ t ∈ a.text, t = x) :
    (∀ f call, w.calls f = some call → call.status ≠ .processing → ∀ a, w'.invokes E a ≠ some f) ∧
      ∀ a a' output output', w.writes a = some output → w'.writes a' = some output' → output' = output := by
  have hinv : CallInv E x w :=
    (decided_of_steps h (fun a ha => htext a (List.mem_append_left _ ha)) callInv_initial).inv
  have hstep := decided_of_steps hlater (fun a ha => htext a (List.mem_append_right _ ha)) hinv
  constructor
  · intro f call hcall hstatus a
    have hdecided := hinv.calls f call hcall hstatus
    exact hstep.inv.not_invokes (hstep.decided f call hcall hdecided) hdecided
  · intro a a' output output' hwrites hwrites'
    obtain ⟨baseline, text, call, hreads, hcall, hdecided, rfl⟩ := hinv.writes hwrites
    obtain ⟨baseline', text', call', hreads', hcall', -, rfl⟩ := hstep.inv.writes hwrites'
    obtain ⟨rfl, rfl⟩ := hreads.unique hreads'
    obtain rfl := Option.some.inj ((hstep.decided _ call hcall hdecided).symm.trans hcall')
    rfl

/-- Two deliveries of the note: the first asks the model and is lost, the second answers from what is stored. -/
def lostNoteActs : List (SupportingAct String String) :=
  [.deliver .hybrid 0, .check 0, .complete 0 (.ok "Delivery note 7"), .search 0, .route 0 (.ok "Delivery note 7"),
    .openRun 0, .openCall 0, .lockCall 0, .answer 0 (.ok "Note 7")]

/-- The message is delivered again, and the second delivery takes the row of the call. -/
def redeliveredNoteActs : List (SupportingAct String String) :=
  [.deliver .hybrid 0, .check 1, .search 1, .route 1 (.ok "Delivery note 7"), .openRun 1, .openCall 1, .lockCall 1,
    .answer 1 (.ok "Note 8")]

theorem provider_asked_once_note :
    ∃ w w', Steps (SupportingWorld.next noteEnv) (.initial _ _ _) lostNoteActs w ∧
      Steps (SupportingWorld.next noteEnv) w redeliveredNoteActs w' ∧
      w.writes (.write 0) = some "Note 7" ∧ w'.writes (.write 1) = some "Note 7" ∧
      ∀ a, w'.invokes noteEnv a ≠ some "NO_LINE_ITEMS" := by
  have hexec : (exec (SupportingWorld.next noteEnv) (.initial _ _ _) lostNoteActs).any (fun w =>
      w.writes (.write 0) = some "Note 7" ∧ w.calls "NO_LINE_ITEMS" = some ⟨.succeeded, some "Note 7", none⟩ ∧
        (exec (SupportingWorld.next noteEnv) w redeliveredNoteActs).any fun w' =>
          (w'.writes (.write 1)).isSome) = true := by
    decide +kernel
  obtain ⟨w, hw, hexec⟩ := (Option.any_eq_true _ _).1 hexec
  obtain ⟨hwrites, hcall, hexec⟩ := of_decide_eq_true hexec
  obtain ⟨w', hw', hsome⟩ := (Option.any_eq_true _ _).1 hexec
  obtain ⟨output, hwrites'⟩ := Option.isSome_iff_exists.1 hsome
  have htext : ∀ a ∈ lostNoteActs ++ redeliveredNoteActs, ∀ t ∈ a.text, t = .ok "Delivery note 7" := by
    simp [lostNoteActs, redeliveredNoteActs, SupportingAct.text]
  obtain ⟨honce, hsame⟩ := provider_asked_once noteEnv (.ok "Delivery note 7") (.of_exec hw) (.of_exec hw') htext
  refine ⟨w, w', .of_exec hw, .of_exec hw', hwrites, ?_, honce _ _ hcall (by simp)⟩
  rw [hwrites', hsame _ _ _ _ hwrites hwrites']

end InvoiceOps
