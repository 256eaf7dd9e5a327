import InvoiceOps.Lib.Rounding
import Mathlib.Data.Rat.Floor

/-! The admission bound of a live evaluation (`evaluation/live_budget.py`). A call reserves the cost of the largest
request before it is made; afterwards the reservation is replaced by what its usage is charged, or kept in full when
the usage is not known, and then no further call is admitted. The sums are made in the default context of 28 digits:
as long as none of them is rounded, the account covers the known cost and every call that is not known. -/

namespace InvoiceOps

namespace Evaluation

structure PriceProfile where
  snapshot : String := "openai-standard-2026-10-11"
  model : String := "gpt-4.1-mini-2025-04-14"
  inputUsdPerMillion : Decimal := ⟨false, 40, -2⟩
  outputUsdPerMillion : Decimal := ⟨false, 160, -2⟩
  contextTokens : ℕ := 1047576
  modelMaxOutputTokens : ℕ := 32768
  imageTokenMultiplierBound : Decimal := ⟨false, 162, -2⟩

namespace PriceProfile

/-- `==`, which compares decimals by their numbers. -/
def Equal (p q : PriceProfile) : Prop :=
  p.snapshot = q.snapshot ∧ p.model = q.model ∧ p.inputUsdPerMillion.numEq q.inputUsdPerMillion ∧
    p.outputUsdPerMillion.numEq q.outputUsdPerMillion ∧ p.contextTokens = q.contextTokens ∧
    p.modelMaxOutputTokens = q.modelMaxOutputTokens ∧
    p.imageTokenMultiplierBound.numEq q.imageTokenMultiplierBound

instance (p q : PriceProfile) : Decidable (p.Equal q) := by unfold Equal; infer_instance

variable (p : PriceProfile)

def cost (inputTokens outputTokens : ℕ) : Decimal :=
  Decimal.divIn 28
    (Decimal.addIn 28 (Decimal.mulIn 28 ⟨false, inputTokens, 0⟩ p.inputUsdPerMillion)
      (Decimal.mulIn 28 ⟨false, outputTokens, 0⟩ p.outputUsdPerMillion))
    ⟨false, 1000000, 0⟩

def weightedInput (tokens : ℕ) : ℕ :=
  ⌈(Decimal.mulIn 28 ⟨false, tokens, 0⟩ p.imageTokenMultiplierBound).toRat⌉.toNat

def inputChargeBound : ℕ := p.weightedInput p.contextTokens

def requestBound (maxOutputTokens : ℕ) : Decimal := p.cost p.inputChargeBound maxOutputTokens

end PriceProfile

inductive VisionProviderError
  | providerFailed
  | providerTransientError
  | providerRefusal
  | providerIncomplete
  | providerSchemaInvalid
  | evaluationBudgetRefused
deriving DecidableEq

def VisionProviderError.code : VisionProviderError → String
  | .providerFailed => "provider_failed"
  | .providerTransientError => "provider_transient_error"
  | .providerRefusal => "provider_refusal"
  | .providerIncomplete => "provider_incomplete"
  | .providerSchemaInvalid => "provider_schema_invalid"
  | .evaluationBudgetRefused => "evaluation_budget_refused"

structure VisionUsage where
  inputTokens : Option ℕ
  outputTokens : Option ℕ
  totalTokens : Option ℕ

/-- A count of the answer's usage: an `int`, or a value of another type with what `VisionUsage` reads in it; there
`none` is a validation error. -/
inductive RawCount
  | int (n : ℤ)
  | other (read : Option (Option ℕ))

def RawCount.isInt : RawCount → Bool
  | .int _ => true
  | .other _ => false

def RawCount.read : RawCount → Option (Option ℕ)
  | .int n => if 0 ≤ n then some (some n.toNat) else none
  | .other r => r

structure RawUsage where
  inputTokens : RawCount
  outputTokens : RawCount
  totalTokens : RawCount

def VisionUsage.ofRaw (raw : RawUsage) : Option VisionUsage := do
  let input ← raw.inputTokens.read
  let output ← raw.outputTokens.read
  let total ← raw.totalTokens.read
  return ⟨input, output, total⟩

structure RawResponse where
  model : Option String
  serviceTier : Option String
  usage : Option RawUsage

/-- `_BoundedResponses.parse`: the usage it keeps and whether the response is verified. -/
def boundedParse (p : PriceProfile) (response : RawResponse) : Option VisionUsage × Bool :=
  let tier := decide (response.model = some p.model ∧ response.serviceTier = some "default")
  match response.usage with
  | none => (none, tier)
  | some raw =>
    let ints := raw.inputTokens.isInt && raw.outputTokens.isInt && raw.totalTokens.isInt
    match VisionUsage.ofRaw raw with
    | none => (none, false)
    | some usage => (some usage, tier && ints)

/-- What becomes of the one request of a call: an error before there is a response, or a response and what the
provider makes of it once it is verified. -/
inductive Outcome
  | failed (error : VisionProviderError)
  | answered (response : RawResponse) (result : Except VisionProviderError Unit)

def Outcome.usage (p : PriceProfile) : Outcome → Option VisionUsage × Bool
  | .failed _ => (none, false)
  | .answered response _ => boundedParse p response

/-- An unverified response is an error of the request. -/
def Outcome.result (p : PriceProfile) : Outcome → Except VisionProviderError Unit
  | .failed error => .error error
  | .answered response result => if (boundedParse p response).2 then result else .error .providerFailed

/-- The limit and bounds the constructor accepts. -/
structure SpendLedger where
  profile : PriceProfile
  limit : Decimal
  maxOutputTokens : ℕ
  verified : profile.Equal {}
  positive : Decimal.zero < limit
  bounded : 1 ≤ maxOutputTokens ∧ maxOutputTokens ≤ profile.modelMaxOutputTokens
  covers : ¬limit < profile.requestBound maxOutputTokens

structure LedgerState where
  accountedUpper : Decimal := Decimal.zero
  knownCost : Decimal := Decimal.zero
  calls : ℕ := 0
  knownUsageCalls : ℕ := 0
  unknownUsageCalls : ℕ := 0
  inputTokens : ℕ := 0
  outputTokens : ℕ := 0
  totalTokens : ℕ := 0
  halted : Bool := false

namespace SpendLedger

/-- `SpendLedger.__init__` -/
def create (profile : PriceProfile) (limit : Decimal) (maxOutputTokens : ℤ) : Except String SpendLedger :=
  if hprofile : ¬profile.Equal {} then .error "Unverified price profile"
  else if hlimit : ¬Decimal.zero < limit then .error "Spending limit must be finite and positive"
  else if hmax : ¬(1 ≤ maxOutputTokens ∧ maxOutputTokens ≤ profile.modelMaxOutputTokens) then
    .error "Invalid maximum output tokens"
  else if hcovers : limit < profile.requestBound maxOutputTokens.toNat then
    .error "Spending limit cannot reserve even one bounded request"
  else .ok ⟨profile, limit, maxOutputTokens.toNat, not_not.1 hprofile, not_not.1 hlimit, by omega, hcovers⟩

variable (L : SpendLedger)

def inputChargeBound : ℕ := L.profile.inputChargeBound

def requestBound : Decimal := L.profile.requestBound L.maxOutputTokens

def reserve (s : LedgerState) : Except VisionProviderError LedgerState :=
  if s.halted = true ∨ L.limit < Decimal.addIn 28 s.accountedUpper L.requestBound then .error .evaluationBudgetRefused
  else .ok { s with accountedUpper := Decimal.addIn 28 s.accountedUpper L.requestBound, calls := s.calls + 1 }

/-- The input, output and total tokens of a usage that passes the checks of `settle`. -/
def counted : Option VisionUsage → Bool → Option (ℕ × ℕ × ℕ)
  | some ⟨some input, some output, some total⟩, true =>
    if L.inputChargeBound < input ∨ L.maxOutputTokens < output ∨ total ≠ input + output then none
    else some (input, output, total)
  | _, _ => none

/-- What a call of this usage stays charged with. -/
def chargedBound (input output : ℕ) : Decimal :=
  L.profile.cost (min L.inputChargeBound (L.profile.weightedInput input)) output

def settle (s : LedgerState) (usage : Option VisionUsage) (verified : Bool) : LedgerState :=
  match L.counted usage verified with
  | none => { s with unknownUsageCalls := s.unknownUsageCalls + 1, halted := true }
  | some (input, output, total) =>
    { s with
      accountedUpper := Decimal.addIn 28 s.accountedUpper (Decimal.subIn 28 (L.chargedBound input output) L.requestBound)
      knownCost := Decimal.addIn 28 s.knownCost (L.profile.cost input output)
      knownUsageCalls := s.knownUsageCalls + 1
      inputTokens := s.inputTokens + input
      outputTokens := s.outputTokens + output
      totalTokens := s.totalTokens + total }

/-- `BudgetedVisionProvider.extract`; the settlement is in its `finally`. -/
def extract (s : LedgerState) (o : Outcome) : LedgerState × Except VisionProviderError Unit :=
  match L.reserve s with
  | .error e => (s, .error e)
  | .ok reserved => (L.settle reserved (o.usage L.profile).1 (o.usage L.profile).2, o.result L.profile)

/-- The account after these calls. -/
def run (outcomes : List Outcome) : LedgerState := outcomes.foldl (fun s o => (L.extract s o).1) {}

theorem run_append (pre post : List Outcome) :
    L.run (pre ++ post) = post.foldl (fun s o => (L.extract s o).1) (L.run pre) := List.foldl_append

theorem run_snoc (pre : List Outcome) (o : Outcome) : L.run (pre ++ [o]) = (L.extract (L.run pre) o).1 := by
  rw [run_append, List.foldl_cons, List.foldl_nil]

/-- Every ledger is one the constructor returns. -/
theorem create_eq_ok : create L.profile L.limit L.maxOutputTokens = .ok L := by
  have hbounded := L.bounded
  rw [create, dif_neg (not_not.2 L.verified), dif_neg (not_not.2 L.positive), dif_neg (not_not.2 (by omega)),
    dif_neg (by rw [Int.toNat_natCast]; exact L.covers)]
  rfl

end SpendLedger

theorem toRat_natural (n : ℕ) : (⟨false, n, 0⟩ : Decimal).toRat = n := by simp [Decimal.toRat, Decimal.int]

/-- So many ten millionths of a dollar, as every cost is. -/
def tenMillionths (n : ℕ) : ℚ := n / 10 ^ 7

theorem fits_tenMillionths {n : ℕ} (h : n < 10 ^ 28) : Decimal.Fits 28 (tenMillionths n) := by
  refine ⟨n, -7, by rw [Nat.abs_cast]; exact_mod_cast h, ?_⟩
  rw [tenMillionths, zpow_neg, div_eq_mul_inv]
  norm_num

theorem tenMillionths_add (m n : ℕ) : tenMillionths (m + n) = tenMillionths m + tenMillionths n := by
  simp only [tenMillionths]
  push_cast
  ring

theorem tenMillionths_le {m n : ℕ} : tenMillionths m ≤ tenMillionths n ↔ m ≤ n := by
  rw [tenMillionths, tenMillionths, div_le_div_iff_of_pos_right (by norm_num)]
  exact Nat.cast_le

namespace PriceProfile

variable {p : PriceProfile}

/-- The cost in ten millionths. -/
def costUnits (input output : ℕ) : ℕ := 4 * input + 16 * output

theorem toRat_cost (hp : p.Equal {}) {input output : ℕ} (hinput : input ≤ 1697074) (houtput : output ≤ 32768) :
    (p.cost input output).toRat = tenMillionths (costUnits input output) := by
  obtain ⟨-, -, hin, hout, -⟩ := hp
  have hinPrice : p.inputUsdPerMillion.toRat = 2 / 5 := by
    rw [(Decimal.numEq_iff _ _).1 hin]
    norm_num [Decimal.toRat, Decimal.int]
  have houtPrice : p.outputUsdPerMillion.toRat = 8 / 5 := by
    rw [(Decimal.numEq_iff _ _).1 hout]
    norm_num [Decimal.toRat, Decimal.int]
  have hfirst : (Decimal.mulIn 28 ⟨false, input, 0⟩ p.inputUsdPerMillion).toRat = input * (2 / 5) := by
    rw [Decimal.toRat_mulIn (by norm_num), toRat_natural, hinPrice]
    rw [toRat_natural, hinPrice]
    exact ⟨4 * input, -1, by rw [abs_of_nonneg (by positivity)]; omega, by push_cast; norm_num; ring⟩
  have hsecond : (Decimal.mulIn 28 ⟨false, output, 0⟩ p.outputUsdPerMillion).toRat = output * (8 / 5) := by
    rw [Decimal.toRat_mulIn (by norm_num), toRat_natural, houtPrice]
    rw [toRat_natural, houtPrice]
    exact ⟨16 * output, -1, by rw [abs_of_nonneg (by positivity)]; omega, by push_cast; norm_num; ring⟩
  have hsum : (Decimal.addIn 28 (Decimal.mulIn 28 ⟨false, input, 0⟩ p.inputUsdPerMillion)
      (Decimal.mulIn 28 ⟨false, output, 0⟩ p.outputUsdPerMillion)).toRat = input * (2 / 5) + output * (8 / 5) := by
    rw [Decimal.toRat_addIn (by norm_num), hfirst, hsecond]
    rw [hfirst, hsecond]
    exact ⟨4 * input + 16 * output, -1, by rw [abs_of_nonneg (by positivity)]; omega, by push_cast; norm_num; ring⟩
  have hquotient : (input * (2 / 5) + output * (8 / 5)) / (⟨false, 1000000, 0⟩ : Decimal).toRat =
      tenMillionths (costUnits input output) := by
    rw [toRat_natural, tenMillionths, costUnits]
    push_cast
    ring
  rw [cost, Decimal.toRat_divIn (by norm_num) (by norm_num), hsum, hquotient]
  rw [hsum, hquotient]
  exact fits_tenMillionths (by rw [costUnits]; omega)

theorem weightedInput_eq (hp : p.Equal {}) {tokens : ℕ} (h : tokens ≤ 1697074) :
    p.weightedInput tokens = (162 * tokens + 99) / 100 := by
  obtain ⟨-, -, -, -, -, -, hmultiplier⟩ := hp
  have hvalue : p.imageTokenMultiplierBound.toRat = 81 / 50 := by
    rw [(Decimal.numEq_iff _ _).1 hmultiplier]
    norm_num [Decimal.toRat, Decimal.int]
  have hproduct : (Decimal.mulIn 28 ⟨false, tokens, 0⟩ p.imageTokenMultiplierBound).toRat = tokens * (81 / 50) := by
    rw [Decimal.toRat_mulIn (by norm_num), toRat_natural, hvalue]
    rw [toRat_natural, hvalue]
    exact ⟨162 * tokens, -2, by rw [abs_of_nonneg (by positivity)]; omega, by push_cast; norm_num; ring⟩
  have hceil : ⌈(tokens : ℚ) * (81 / 50)⌉ = ((162 * tokens + 99) / 100 : ℕ) := by
    rw [Int.ceil_eq_iff]
    generalize hq : (162 * tokens + 99) / 100 = q
    have hlower : 100 * q ≤ 162 * tokens + 99 := by omega
    have hupper : 162 * tokens ≤ 100 * q := by omega
    have hlowerQ : (100 : ℚ) * q ≤ 162 * tokens + 99 := by exact_mod_cast hlower
    have hupperQ : (162 : ℚ) * tokens ≤ 100 * q := by exact_mod_cast hupper
    push_cast
    constructor
    · linarith
    · linarith
  rw [weightedInput, hproduct, hceil, Int.toNat_natCast]

theorem inputChargeBound_eq (hp : p.Equal {}) : p.inputChargeBound = 1697074 := by
  have hcontext : p.contextTokens = 1047576 := hp.2.2.2.2.1
  rw [inputChargeBound, hcontext, weightedInput_eq hp (by norm_num)]

theorem toRat_requestBound (hp : p.Equal {}) {maxOutputTokens : ℕ} (h : maxOutputTokens ≤ 32768) :
    (p.requestBound maxOutputTokens).toRat = tenMillionths (costUnits 1697074 maxOutputTokens) := by
  rw [requestBound, inputChargeBound_eq hp, toRat_cost hp le_rfl h]

end PriceProfile

namespace SpendLedger

/-- The account of these calls covers what they cost. -/
structure Holds (L : SpendLedger) (s : LedgerState) : Prop where
  nonneg : 0 ≤ s.knownCost.toRat
  known : s.knownCost ≤ s.accountedUpper
  within : s.accountedUpper ≤ L.limit
  calls : s.calls = s.knownUsageCalls + s.unknownUsageCalls
  unsettled : s.knownCost.toRat + s.unknownUsageCalls * L.requestBound.toRat ≤ s.accountedUpper.toRat
  closed : 0 < s.unknownUsageCalls → L.reserve s = .error .evaluationBudgetRefused

/-- No sum this call makes has more than 28 digits: the reservation, and for a call that is charged what its usage
adds up to. -/
def Exact (L : SpendLedger) (s : LedgerState) (o : Outcome) : Prop :=
  s.halted = false →
    Decimal.Fits 28 (s.accountedUpper.toRat + L.requestBound.toRat) ∧
    (s.accountedUpper.toRat + L.requestBound.toRat ≤ L.limit.toRat →
      ∀ input output total,
        L.counted (o.usage L.profile).1 (o.usage L.profile).2 = some (input, output, total) →
        Decimal.Fits 28 (s.accountedUpper.toRat + (L.chargedBound input output).toRat) ∧
          Decimal.Fits 28 (s.knownCost.toRat + (L.profile.cost input output).toRat))

variable {L : SpendLedger} {s : LedgerState} {o : Outcome}

theorem maxOutputTokens_le (L : SpendLedger) : L.maxOutputTokens ≤ 32768 :=
  L.bounded.2.trans_eq L.verified.2.2.2.2.2.1

theorem counted_eq_some {usage : Option VisionUsage} {verified : Bool} {input output total : ℕ}
    (h : L.counted usage verified = some (input, output, total)) :
    input ≤ 1697074 ∧ output ≤ L.maxOutputTokens ∧ total = input + output := by
  unfold counted at h
  split at h
  · split_ifs at h with hguard
    obtain ⟨rfl, rfl, rfl⟩ : _ = input ∧ _ = output ∧ _ = total := by simpa using h
    rw [inputChargeBound, PriceProfile.inputChargeBound_eq L.verified] at hguard
    omega
  · cases h

/-- The reservation of a call in ten millionths. -/
def requestUnits (L : SpendLedger) : ℕ := PriceProfile.costUnits 1697074 L.maxOutputTokens

def chargedUnits (input output : ℕ) : ℕ := PriceProfile.costUnits (min 1697074 ((162 * input + 99) / 100)) output

theorem toRat_requestBound (L : SpendLedger) : L.requestBound.toRat = tenMillionths L.requestUnits :=
  PriceProfile.toRat_requestBound L.verified L.maxOutputTokens_le

theorem requestUnits_lt (L : SpendLedger) : L.requestUnits < 10 ^ 7 := by
  have hmax := L.maxOutputTokens_le
  rw [requestUnits, PriceProfile.costUnits]
  omega

theorem toRat_chargedBound {input output : ℕ} (hinput : input ≤ 1697074) (houtput : output ≤ L.maxOutputTokens) :
    (L.chargedBound input output).toRat = tenMillionths (chargedUnits input output) := by
  rw [chargedBound, inputChargeBound, PriceProfile.inputChargeBound_eq L.verified,
    PriceProfile.weightedInput_eq L.verified hinput]
  exact PriceProfile.toRat_cost L.verified (min_le_left _ _) (houtput.trans L.maxOutputTokens_le)

theorem toRat_cost {input output : ℕ} (hinput : input ≤ 1697074) (houtput : output ≤ L.maxOutputTokens) :
    (L.profile.cost input output).toRat = tenMillionths (PriceProfile.costUnits input output) :=
  PriceProfile.toRat_cost L.verified hinput (houtput.trans L.maxOutputTokens_le)

/-- The weighting is rounded up and never above the bound, so a charge lies between the cost and the reservation. -/
theorem costUnits_le_charged {input output : ℕ} (hinput : input ≤ 1697074) :
    PriceProfile.costUnits input output ≤ chargedUnits input output := by
  rw [chargedUnits, PriceProfile.costUnits, PriceProfile.costUnits]
  omega

theorem chargedUnits_le {input output : ℕ} (houtput : output ≤ L.maxOutputTokens) :
    chargedUnits input output ≤ L.requestUnits := by
  rw [chargedUnits, requestUnits, PriceProfile.costUnits, PriceProfile.costUnits]
  omega

theorem reserve_halted (h : s.halted = true) : L.reserve s = .error .evaluationBudgetRefused := by
  rw [reserve, if_pos (Or.inl h)]

/-- An admitted call is charged the request bound, within the limit. -/
theorem reserve_eq_ok {reserved : LedgerState} (h : L.reserve s = .ok reserved) :
    s.halted = false ∧ Decimal.addIn 28 s.accountedUpper L.requestBound ≤ L.limit ∧
      reserved = { s with accountedUpper := Decimal.addIn 28 s.accountedUpper L.requestBound, calls := s.calls + 1 } := by
  unfold reserve at h
  split_ifs at h with hrefused
  obtain ⟨hhalted, hlimit⟩ := not_or.1 hrefused
  refine ⟨by simpa using hhalted, ?_, (Except.ok.inj h).symm⟩
  rw [Decimal.le_iff]
  rwa [Decimal.lt_iff, not_lt] at hlimit

theorem reserve_of_le (hhalted : s.halted = false)
    (hle : ¬L.limit < Decimal.addIn 28 s.accountedUpper L.requestBound) : L.reserve s =
      .ok { s with accountedUpper := Decimal.addIn 28 s.accountedUpper L.requestBound, calls := s.calls + 1 } := by
  rw [reserve, if_neg]
  rw [hhalted]
  exact not_or.2 ⟨Bool.false_ne_true, hle⟩

theorem extract_of_error {e : VisionProviderError} (h : L.reserve s = .error e) : L.extract s o = (s, .error e) := by
  rw [extract, h]

theorem extract_of_ok {reserved : LedgerState} (h : L.reserve s = .ok reserved) :
    (L.extract s o).1 = L.settle reserved (o.usage L.profile).1 (o.usage L.profile).2 := by
  rw [extract, h]

/-- The reservation replaced by the charge, when nothing is rounded. -/
theorem toRat_settled {input output : ℕ} {a : Decimal} (hinput : input ≤ 1697074) (houtput : output ≤ L.maxOutputTokens)
    (hreserved : a.toRat = s.accountedUpper.toRat + L.requestBound.toRat)
    (hfits : Decimal.Fits 28 (s.accountedUpper.toRat + (L.chargedBound input output).toRat)) :
    (Decimal.addIn 28 a (Decimal.subIn 28 (L.chargedBound input output) L.requestBound)).toRat =
      s.accountedUpper.toRat + (L.chargedBound input output).toRat := by
  have hdifference : (Decimal.subIn 28 (L.chargedBound input output) L.requestBound).toRat =
      (L.chargedBound input output).toRat - L.requestBound.toRat := by
    rw [Decimal.toRat_subIn (by norm_num)]
    have hle : chargedUnits input output ≤ L.requestUnits := chargedUnits_le houtput
    have hsplit : (L.chargedBound input output).toRat - L.requestBound.toRat =
        -tenMillionths (L.requestUnits - chargedUnits input output) := by
      have hsum := tenMillionths_add (L.requestUnits - chargedUnits input output) (chargedUnits input output)
      rw [Nat.sub_add_cancel hle] at hsum
      rw [toRat_chargedBound hinput houtput, toRat_requestBound, hsum]
      ring
    rw [hsplit]
    have hlt := L.requestUnits_lt
    exact (fits_tenMillionths (by omega)).neg
  have hsum : a.toRat + ((L.chargedBound input output).toRat - L.requestBound.toRat) =
      s.accountedUpper.toRat + (L.chargedBound input output).toRat := by
    rw [hreserved]
    ring
  rw [Decimal.toRat_addIn (by norm_num), hdifference, hsum]
  rw [hdifference, hsum]
  exact hfits

/-- What a call that meets the condition does to the account. -/
inductive Charges (L : SpendLedger) (s : LedgerState) : LedgerState → Prop
  | refused : Charges L s s
  | unknown {t : LedgerState}
      (hlimit : s.accountedUpper.toRat + L.requestBound.toRat ≤ L.limit.toRat)
      (haccounted : t.accountedUpper.toRat = s.accountedUpper.toRat + L.requestBound.toRat)
      (hknown : t.knownCost.toRat = s.knownCost.toRat)
      (hcalls : t.calls = s.calls + 1 ∧ t.knownUsageCalls = s.knownUsageCalls ∧
        t.unknownUsageCalls = s.unknownUsageCalls + 1)
      (hhalted : t.halted = true) : Charges L s t
  | known {t : LedgerState} (charged cost : ℕ) (hle : cost ≤ charged ∧ charged ≤ L.requestUnits)
      (hlimit : s.accountedUpper.toRat + L.requestBound.toRat ≤ L.limit.toRat)
      (haccounted : t.accountedUpper.toRat = s.accountedUpper.toRat + tenMillionths charged)
      (hknown : t.knownCost.toRat = s.knownCost.toRat + tenMillionths cost)
      (hcalls : t.calls = s.calls + 1 ∧ t.knownUsageCalls = s.knownUsageCalls + 1 ∧
        t.unknownUsageCalls = s.unknownUsageCalls)
      (hopen : L.reserve s ≠ .error .evaluationBudgetRefused) : Charges L s t

theorem extract_charges (h : L.Exact s o) : Charges L s (L.extract s o).1 := by
  cases hreserve : L.reserve s with
  | error e =>
    rw [extract_of_error hreserve]
    exact .refused
  | ok reserved =>
    obtain ⟨hhalted, hle, rfl⟩ := reserve_eq_ok hreserve
    obtain ⟨hfits, hcharged⟩ := h hhalted
    have hreserved := Decimal.toRat_addIn (by norm_num) hfits
    have hlimit : s.accountedUpper.toRat + L.requestBound.toRat ≤ L.limit.toRat := by
      rw [← hreserved]
      exact (Decimal.le_iff _ _).1 hle
    rw [extract_of_ok hreserve, settle]
    cases hcounted : L.counted (o.usage L.profile).1 (o.usage L.profile).2 with
    | none => exact .unknown hlimit hreserved rfl ⟨rfl, rfl, rfl⟩ rfl
    | some tokens =>
      obtain ⟨input, output, total⟩ := tokens
      obtain ⟨hinput, houtput, -⟩ := counted_eq_some hcounted
      obtain ⟨hupper, hknown⟩ := hcharged hlimit input output total hcounted
      refine .known (chargedUnits input output) (PriceProfile.costUnits input output)
        ⟨costUnits_le_charged hinput, chargedUnits_le houtput⟩ hlimit ?_ ?_ ⟨rfl, rfl, rfl⟩ (by rw [hreserve]; nofun)
      · rw [← toRat_chargedBound hinput houtput]
        exact toRat_settled hinput houtput hreserved hupper
      · rw [← toRat_cost hinput houtput]
        exact Decimal.toRat_addIn (by norm_num) hknown

theorem Holds.step {t : LedgerState} (h : L.Holds s) (hcharges : Charges L s t) : L.Holds t := by
  have hknown := (Decimal.le_iff _ _).1 h.known
  have hunsettled := h.unsettled
  have hbound := L.toRat_requestBound
  cases hcharges with
  | refused => exact h
  | unknown hlimit haccounted hcost hcalls hhalted =>
    obtain ⟨hcalls, hknownCalls, hunknownCalls⟩ := hcalls
    have hpositive : 0 ≤ L.requestBound.toRat := by
      rw [hbound, tenMillionths]
      positivity
    have hmore : (t.unknownUsageCalls : ℚ) * L.requestBound.toRat =
        s.unknownUsageCalls * L.requestBound.toRat + L.requestBound.toRat := by
      rw [hunknownCalls]
      push_cast
      ring
    refine ⟨hcost ▸ h.nonneg, ?_, ?_, ?_, ?_, fun _ => reserve_halted hhalted⟩
    · rw [Decimal.le_iff, haccounted, hcost]
      linarith
    · rw [Decimal.le_iff, haccounted]
      exact hlimit
    · rw [hcalls, hknownCalls, hunknownCalls, h.calls, Nat.add_assoc]
    · rw [haccounted, hcost, hmore]
      linarith
  | known charged cost hle hlimit haccounted hcost hcalls hopen =>
    obtain ⟨hcalls, hknownCalls, hunknownCalls⟩ := hcalls
    have hcostLe := tenMillionths_le.2 hle.1
    have hchargedLe := tenMillionths_le.2 hle.2
    have hcostNonneg : 0 ≤ tenMillionths cost := by
      rw [tenMillionths]
      positivity
    have hnonneg := h.nonneg
    refine ⟨?_, ?_, ?_, ?_, ?_, ?_⟩
    · rw [hcost]
      linarith
    · rw [Decimal.le_iff, haccounted, hcost]
      linarith
    · rw [Decimal.le_iff, haccounted]
      rw [hbound] at hlimit
      linarith
    · rw [hcalls, hknownCalls, hunknownCalls, h.calls]
      omega
    · rw [haccounted, hcost, hunknownCalls]
      linarith
    · intro hunknown
      exact absurd (h.closed (hunknownCalls ▸ hunknown)) hopen

theorem holds_initial (L : SpendLedger) : L.Holds {} := by
  have hpositive := (Decimal.lt_iff _ _).1 L.positive
  rw [Decimal.toRat_zero] at hpositive
  refine ⟨?_, ?_, ?_, rfl, ?_, fun h => absurd h (lt_irrefl 0)⟩
  · exact le_of_eq Decimal.toRat_zero.symm
  · rw [Decimal.le_iff]
  · rw [Decimal.le_iff]
    exact Decimal.toRat_zero.trans_le hpositive.le
  · simp

theorem holds_run {outcomes : List Outcome} (h : ∀ pre o, pre ++ [o] <+: outcomes → L.Exact (L.run pre) o) :
    L.Holds (L.run outcomes) := by
  induction outcomes using List.reverseRecOn with
  | nil => exact L.holds_initial
  | append_singleton outcomes o ih =>
    rw [run_snoc]
    have hbefore := ih fun pre o' hpre => h pre o' (hpre.trans (List.prefix_append _ _))
    exact hbefore.step (extract_charges (h outcomes o (List.prefix_refl _)))

/-- Once `reserve` refuses, it refuses for good, and nothing is charged any more. -/
theorem run_closed {pre : List Outcome} (h : L.reserve (L.run pre) = .error .evaluationBudgetRefused)
    (post : List Outcome) : L.run (pre ++ post) = L.run pre := by
  induction post using List.reverseRecOn with
  | nil => rw [List.append_nil]
  | append_singleton post o ih => rw [← List.append_assoc, run_snoc, ih, extract_of_error h]

/-- The sums of an account are whole ten millionths. -/
def Whole (s : LedgerState) : Prop :=
  (∃ a, s.accountedUpper.toRat = tenMillionths a) ∧ ∃ k, s.knownCost.toRat = tenMillionths k

theorem Whole.step {t : LedgerState} (h : Whole s) (hcharges : Charges L s t) : Whole t := by
  obtain ⟨⟨a, ha⟩, k, hk⟩ := h
  cases hcharges with
  | refused => exact ⟨⟨a, ha⟩, k, hk⟩
  | unknown _ haccounted hknown _ _ =>
    refine ⟨⟨a + L.requestUnits, ?_⟩, k, hknown.trans hk⟩
    rw [haccounted, ha, L.toRat_requestBound, tenMillionths_add]
  | known charged cost _ _ haccounted hknown _ _ =>
    refine ⟨⟨a + charged, ?_⟩, k + cost, ?_⟩
    · rw [haccounted, ha, tenMillionths_add]
    · rw [hknown, hk, tenMillionths_add]

/-- Whole ten millionths up to a limit below 10^21 dollars have at most 28 digits. -/
theorem exact_of_limit (hlimit : L.limit.toRat + 1 ≤ 10 ^ 21) (h : L.Holds s) (hwhole : Whole s) (o : Outcome) :
    L.Exact s o := by
  obtain ⟨⟨a, ha⟩, k, hk⟩ := hwhole
  have hlt := L.requestUnits_lt
  have hdollar : tenMillionths (10 ^ 7) = 1 := by norm_num [tenMillionths]
  have htop : tenMillionths (10 ^ 28) = 10 ^ 21 := by norm_num [tenMillionths]
  have hwithin : tenMillionths a ≤ L.limit.toRat := ha ▸ (Decimal.le_iff _ _).1 h.within
  have hknown : k ≤ a := tenMillionths_le.1 (by rw [← ha, ← hk]; exact (Decimal.le_iff _ _).1 h.known)
  have hsmall : a + 10 ^ 7 ≤ 10 ^ 28 := by
    rw [← tenMillionths_le, tenMillionths_add, hdollar, htop]
    linarith
  intro _
  rw [ha, hk, L.toRat_requestBound, ← tenMillionths_add]
  refine ⟨fits_tenMillionths (by omega), fun _ input output total hcounted => ?_⟩
  obtain ⟨hinput, houtput, -⟩ := counted_eq_some hcounted
  have hcost := @costUnits_le_charged input output hinput
  have hcharged := @chargedUnits_le L input output houtput
  rw [toRat_chargedBound hinput houtput, toRat_cost hinput houtput, ← tenMillionths_add, ← tenMillionths_add]
  exact ⟨fits_tenMillionths (by omega), fits_tenMillionths (by omega)⟩

theorem whole_run (hlimit : L.limit.toRat + 1 ≤ 10 ^ 21) (outcomes : List Outcome) :
    L.Holds (L.run outcomes) ∧ Whole (L.run outcomes) := by
  induction outcomes using List.reverseRecOn with
  | nil => exact ⟨L.holds_initial, ⟨0, by simp [run, tenMillionths]⟩, 0, by simp [run, tenMillionths]⟩
  | append_singleton outcomes o ih =>
    have hcharges := extract_charges (exact_of_limit hlimit ih.1 ih.2 o)
    rw [run_snoc]
    exact ⟨ih.1.step hcharges, ih.2.step hcharges⟩

/-- With such a limit every run meets the condition. -/
theorem exact_run (hlimit : L.limit.toRat + 1 ≤ 10 ^ 21) (pre : List Outcome) (o : Outcome) : L.Exact (L.run pre) o :=
  exact_of_limit hlimit (whole_run hlimit pre).1 (whole_run hlimit pre).2 o

/-- In every run whose sums all fit, the account covers the calls after every one of them, and after one of unknown
usage no call is admitted. -/
theorem spendLedger_covers (L : SpendLedger) (outcomes : List Outcome)
    (h : ∀ pre o, pre ++ [o] <+: outcomes → L.Exact (L.run pre) o) (pre post : List Outcome)
    (hsplit : outcomes = pre ++ post) :
    L.Holds (L.run pre) ∧ (0 < (L.run pre).unknownUsageCalls →
      L.run outcomes = L.run pre ∧ L.reserve (L.run outcomes) = .error .evaluationBudgetRefused) := by
  subst hsplit
  have hholds : L.Holds (L.run pre) := holds_run fun pre' o hpre => h pre' o (hpre.trans (List.prefix_append _ _))
  refine ⟨hholds, fun hunknown => ?_⟩
  have hclosed := hholds.closed hunknown
  have hsame := run_closed hclosed post
  exact ⟨hsame, by rw [hsame]; exact hclosed⟩

/-- An answer of the profile's model with this usage. -/
def metered (input output : ℕ) : Outcome :=
  .answered ⟨some "gpt-4.1-mini-2025-04-14", some "default",
    some ⟨.int input, .int output, .int (input + output : ℕ)⟩⟩ (.ok ())

/-- Two dollars for answers of at most 4096 tokens. -/
def pilotLedger : SpendLedger where
  profile := {}
  limit := ⟨false, 2, 0⟩
  maxOutputTokens := 4096
  verified := by decide
  positive := by decide
  bounded := by decide
  covers := by
    rw [Decimal.lt_iff, PriceProfile.toRat_requestBound (by decide) (by norm_num)]
    norm_num [tenMillionths, PriceProfile.costUnits, Decimal.toRat, Decimal.int]

theorem pilot_covers :
    pilotLedger.Holds (pilotLedger.run [metered 900 200, .failed .providerTransientError]) ∧
      pilotLedger.run [metered 900 200, .failed .providerTransientError, metered 5 5] =
          pilotLedger.run [metered 900 200, .failed .providerTransientError] ∧
        pilotLedger.reserve (pilotLedger.run [metered 900 200, .failed .providerTransientError, metered 5 5]) =
          .error .evaluationBudgetRefused := by
  obtain ⟨hholds, hclosed⟩ :=
    spendLedger_covers pilotLedger [metered 900 200, .failed .providerTransientError, metered 5 5]
      (fun pre o _ => exact_run (by norm_num [pilotLedger, Decimal.toRat, Decimal.int]) pre o)
      [metered 900 200, .failed .providerTransientError] [metered 5 5] rfl
  exact ⟨hholds, hclosed (by decide +kernel)⟩

/-- 10^22 dollars for answers of at most three tokens. -/
def wideLedger : SpendLedger where
  profile := {}
  limit := ⟨false, 1, 22⟩
  maxOutputTokens := 3
  verified := by decide
  positive := by decide
  bounded := by decide
  covers := by
    rw [Decimal.lt_iff, PriceProfile.toRat_requestBound (by decide) (by norm_num)]
    norm_num [tenMillionths, PriceProfile.costUnits, Decimal.toRat, Decimal.int]

theorem requestBound_wide : wideLedger.requestBound = ⟨false, 6788344, -7⟩ := by
  rw [requestBound, PriceProfile.requestBound, PriceProfile.inputChargeBound_eq wideLedger.verified]
  decide

theorem counted_wide : wideLedger.counted ((metered 0 3).usage wideLedger.profile).1
    ((metered 0 3).usage wideLedger.profile).2 = some (0, 3, 3) := by
  change (if wideLedger.inputChargeBound < 0 ∨ 3 < 3 ∨ 3 ≠ 0 + 3 then none else some (0, 3, 3)) = _
  rw [if_neg (by omega)]

theorem chargedBound_wide : wideLedger.chargedBound 0 3 = ⟨false, 48, -7⟩ := by
  rw [chargedBound, PriceProfile.weightedInput_eq wideLedger.verified (by norm_num)]
  norm_num
  decide

theorem cost_wide : wideLedger.profile.cost 0 3 = ⟨false, 48, -7⟩ := by decide

/-- What so many calls without input and and three tokens of output cost. -/
def spent (n : ℕ) : Decimal := if n = 0 then Decimal.zero else ⟨false, 48 * n, -7⟩

theorem spent_add (n b : ℕ) : spent n + ⟨false, b, -7⟩ = ⟨false, 48 * n + b, -7⟩ := by
  rw [spent]
  split_ifs with hn
  · subst hn
    rw [Decimal.zero, Decimal.add_unsigned 0 b (by norm_num), Nat.zero_mul, Nat.mul_zero]
  · rw [Decimal.add_unsigned _ b le_rfl, sub_self, Int.toNat_zero, pow_zero, Nat.mul_one]

/-- The account after these calls is exact, while it has at most 28 digits. -/
theorem run_wide (n : ℕ) (h : 48 * n ≤ 10 ^ 28 - 6788320) :
    (wideLedger.run (List.replicate n (metered 0 3))).accountedUpper = spent n ∧
      (wideLedger.run (List.replicate n (metered 0 3))).knownCost = spent n ∧
      (wideLedger.run (List.replicate n (metered 0 3))).halted = false := by
  induction n with
  | zero => exact ⟨rfl, rfl, rfl⟩
  | succ n ih =>
    obtain ⟨haccounted, hknown, hhalted⟩ := ih (by omega)
    have hreserved : Decimal.addIn 28 (spent n) wideLedger.requestBound = ⟨false, 48 * n + 6788344, -7⟩ := by
      rw [requestBound_wide, Decimal.addIn, spent_add]
      exact Decimal.roundHalfEven_of_lt (by norm_num) (by dsimp only; omega)
    have hlimit : ¬wideLedger.limit < ⟨false, 48 * n + 6788344, -7⟩ := by
      rw [Decimal.lt_iff, not_lt]
      have hcast : ((48 * n + 6788344 : ℕ) : ℚ) ≤ 10 ^ 28 := by exact_mod_cast (show 48 * n + 6788344 ≤ 10 ^ 28 by omega)
      simp only [Decimal.toRat, Decimal.int, wideLedger, Bool.false_eq_true, if_false, Int.cast_natCast]
      norm_num at hcast ⊢
      linarith
    have hreserve := reserve_of_le hhalted (by rw [haccounted, hreserved]; exact hlimit)
    rw [List.replicate_succ', run_snoc, extract_of_ok hreserve, settle, counted_wide]
    simp only [chargedBound_wide, requestBound_wide, cost_wide, hknown, haccounted]
    rw [requestBound_wide] at hreserved
    have hdifference : Decimal.subIn 28 ⟨false, 48, -7⟩ ⟨false, 6788344, -7⟩ = ⟨true, 6788296, -7⟩ := by decide
    have hnext : spent (n + 1) = ⟨false, 48 * n + 48, -7⟩ := by rw [spent, if_neg n.succ_ne_zero, Nat.mul_succ]
    have hsmall : 48 * n + 48 < 10 ^ 28 := by omega
    have hrest : 48 * n + 6788344 - 6788296 = 48 * n + 48 := by omega
    refine ⟨?_, ?_, hhalted⟩
    · rw [hreserved, hdifference, Decimal.addIn, Decimal.add_neg_unsigned (-7) (by omega), hrest, hnext]
      exact Decimal.roundHalfEven_of_lt (by norm_num) hsmall
    · rw [Decimal.addIn, spent_add, hnext]
      exact Decimal.roundHalfEven_of_lt (by norm_num) hsmall

/-- The next reservation is rounded down, and the account falls below what is known to be spent. -/
theorem step_wide {s : LedgerState} {n : ℕ} (hn : 48 * n = 10 ^ 28 - 6788320) (haccounted : s.accountedUpper = spent n)
    (hknown : s.knownCost = spent n) (hhalted : s.halted = false) :
    ¬(wideLedger.extract s (metered 0 3)).1.knownCost ≤ (wideLedger.extract s (metered 0 3)).1.accountedUpper := by
  have hreserved : Decimal.addIn 28 s.accountedUpper wideLedger.requestBound = ⟨false, 10 ^ 27 + 2, -6⟩ := by
    rw [haccounted, requestBound_wide, Decimal.addIn, spent_add, hn]
    decide
  have hreserve := reserve_of_le hhalted (by rw [hreserved]; decide)
  rw [extract_of_ok hreserve, settle, counted_wide]
  simp only [chargedBound_wide, requestBound_wide, cost_wide, hknown]
  rw [requestBound_wide] at hreserved
  rw [hreserved]
  rw [Decimal.addIn, Decimal.addIn, spent_add, hn]
  decide

theorem wide_falls_short : ¬wideLedger.Holds
    (wideLedger.run (List.replicate (208333333333333333333191910 + 1) (metered 0 3))) := by
  obtain ⟨haccounted, hknown, hhalted⟩ := run_wide 208333333333333333333191910 (by norm_num)
  intro h
  rw [List.replicate_succ', run_snoc] at h
  exact step_wide (by norm_num) haccounted hknown hhalted h.known

end SpendLedger

end Evaluation

end InvoiceOps
