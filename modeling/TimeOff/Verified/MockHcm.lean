import TimeOff.Hcm.MockServer
import TimeOff.Verified.WireFormat

/-! # What HCM makes of the service's calls

The two calls that the service makes are texts to HCM.  It reads from them what the service
has put in, so a consume call does one of four things: HCM follows its script, it knows the
id, the balance is too low, or it takes the days.
-/

set_option autoImplicit false

namespace TimeOff

open TimeOff.Lib HcmClient MockHcmState

/-! ## Reading the calls -/

theorem inferOp_consume (payload : ConsumePayload) :
    inferOp (consumeBalanceCall payload).method (consumeBalanceCall payload).pathname = .consume := by
  have path : (consumeBalanceCall payload).pathname = "/api/v1/time-off" := by
    show String.ofList ("/api/v1/time-off".toList.takeWhile (· ≠ '?')) = _
    decide
  rw [path]
  exact show inferOp "POST" "/api/v1/time-off" = .consume by decide

theorem balanceCall_path (key : Key) : (getBalanceCall key).path.toList =
    "/api/v1/balances".toList ++ '?' :: (balanceQuery key).toList := by
  simp [getBalanceCall]

theorem inferOp_getBalance (key : Key) :
    inferOp (getBalanceCall key).method (getBalanceCall key).pathname = .getBalance := by
  have path : (getBalanceCall key).pathname = "/api/v1/balances" := by
    rw [HttpCall.pathname, balanceCall_path, List.takeWhile_append_of_pos (List.all_eq_true.mp rfl)]
    simp
  rw [path]
  exact show inferOp "GET" "/api/v1/balances" = .getBalance by decide

/-- What HCM reads of a payload. -/
def ConsumePayload.body (payload : ConsumePayload) : ConsumeBody :=
  ⟨payload.key.employeeId, payload.key.locationId, payload.key.leaveType, payload.days,
    payload.externalRequestId⟩

theorem readConsume {payload : ConsumePayload} (writable : payload.Writable) :
    (consumeBalanceCall payload).json.bind ConsumeBody.ofJson? = some payload.body := by
  have json : (consumeBalanceCall payload).json = some payload.toJson := by
    rw [HttpCall.json, consumeBalanceCall, Option.bind_some, Json.parse_stringify writable.plain]
  rw [json, Option.bind_some]
  obtain ⟨n, small, days⟩ := writable
  obtain ⟨x, value, exact_⟩ := ofRat_natCast small
  cases payload
  cases days
  simp [ConsumeBody.ofJson?, ConsumePayload.toJson, ConsumePayload.body, Json.member?, Json.text?,
    Json.amount?, exact_, value]

/-! ## Handling the calls -/

/-- The key of `_balances` under which HCM keeps the balance. -/
def mockKey (key : Key) : String := MockHcmState.key key.employeeId key.locationId key.leaveType

/-- HCM's balance, zero where there is none. -/
def MockHcmState.balanceOf (hcm : MockHcmState) (k : String) : ℚ := ((hcm.balances k).map MockBalance.balance).getD 0

theorem MockHcmState.balanceAt_balance (hcm : MockHcmState) (now : Int) (k : String) :
    (hcm.balanceAt now k).balance = hcm.balanceOf k := by
  simp only [balanceAt, balanceOf]
  cases hcm.balances k <;> rfl

/-- Balances and ids are as they were. -/
structure MockHcmState.SameAccounts (hcm after : MockHcmState) : Prop where
  balances : after.balances = hcm.balances
  idempotency : after.idempotency = hcm.idempotency

theorem recorded_congr {hcm after : MockHcmState} (same : after.idempotency = hcm.idempotency) (id : String) :
    after.recorded id = hcm.recorded id := by
  simp only [recorded, same]

theorem recorded_update {hcm after : MockHcmState} {taken : String}
    (idempotency : after.idempotency = Function.update hcm.idempotency taken (some .consumed)) (id : String) :
    after.recorded id = (decide (taken = id) || hcm.recorded id) := by
  simp only [recorded, idempotency, Function.update_apply]
  by_cases own : id = taken
  · simp [own]
  · simp [own, Ne.symm own]

/-- What a consume call of the payload can come to. -/
inductive HcmHandled (payload : ConsumePayload) (hcm : MockHcmState) : FetchOutcome → MockHcmState → Prop
  | scripted (failure : ScriptedFailure) (after : MockHcmState) (planned : failure ∈ hcm.failurePlan)
      (same : hcm.SameAccounts after) : HcmHandled payload hcm failure.outcome after
  | repeated (outcome : FetchOutcome) (after : MockHcmState)
      (known : hcm.recorded payload.externalRequestId = true) (same : hcm.SameAccounts after) :
      HcmHandled payload hcm outcome after
  | refused (outcome : FetchOutcome) (after : MockHcmState) (short : hcm.balanceOf (mockKey payload.key) < payload.days)
      (answer : outcome.ok = false) (same : hcm.SameAccounts after) : HcmHandled payload hcm outcome after
  | taken (outcome : FetchOutcome) (after : MockHcmState) (now : Int)
      (unknown : hcm.recorded payload.externalRequestId = false)
      (covered : payload.days ≤ hcm.balanceOf (mockKey payload.key))
      (balances : after.balances = Function.update hcm.balances (mockKey payload.key)
        (some ⟨hcm.balanceOf (mockKey payload.key) - payload.days, now⟩))
      (idempotency : after.idempotency =
        Function.update hcm.idempotency payload.externalRequestId (some .consumed)) :
      HcmHandled payload hcm outcome after

/-- Whatever the call, the plan only gets shorter. -/
theorem fetch_plan (now : Int) (call : HttpCall) (hcm : MockHcmState) :
    ∀ failure ∈ (hcm.fetch now call).2.failurePlan, failure ∈ hcm.failurePlan := by
  intro failure member
  have rest : ∀ op, (hcm.failurePlan.eraseP fun failure => failure.op = op) ⊆ hcm.failurePlan :=
    fun op => List.eraseP_subset
  apply rest (inferOp call.method call.pathname)
  simp only [fetch, popFailure] at member
  split at member
  · exact member
  · split at member
    · exact member
    · split at member
      · simp only [consume] at member
        split at member
        · exact member
        · split at member
          · exact member
          · exact member
      · exact member
    · split at member
      · exact member
      · exact member
    · exact member

theorem fetch_consume {payload : ConsumePayload} (writable : payload.Writable)
    (named : payload.externalRequestId ≠ "") (now : Int) (hcm : MockHcmState) :
    HcmHandled payload hcm (hcm.fetch now (consumeBalanceCall payload)).1
      (hcm.fetch now (consumeBalanceCall payload)).2 := by
  simp only [fetch, inferOp_consume, popFailure, readConsume writable]
  split
  next failure scripted => exact .scripted failure _ (List.mem_of_find?_eq_some scripted) ⟨rfl, rfl⟩
  next unscripted =>
    simp only [consume, ConsumePayload.body, named, ne_eq, not_false_eq_true, true_and, if_true,
      balanceAt_balance]
    split
    next known => exact .repeated _ _ known ⟨rfl, rfl⟩
    next unknown =>
      split
      next short => exact .refused _ _ short rfl ⟨rfl, rfl⟩
      next covered =>
        refine .taken _ _ now ?_ (not_lt.mp covered) rfl rfl
        exact Bool.eq_false_iff.mpr unknown

/-- Asking for a balance changes none. -/
theorem fetch_getBalance (now : Int) (key : Key) (hcm : MockHcmState) :
    hcm.SameAccounts (hcm.fetch now (getBalanceCall key)).2 := by
  simp only [fetch, inferOp_getBalance, popFailure]
  split
  · exact ⟨rfl, rfl⟩
  · exact ⟨rfl, rfl⟩

end TimeOff
