import Empyralis.Server.CreditDebits

/-! Sequences of debits, of both kinds in any order: the balance and the list of transactions move
    together, a request and the allowance count once, and a month pays no more than its overage. -/

namespace Empyralis.Server.Credits
open Text (strip)

variable (env : Env)

/-! ### Reading back what was written -/

def payloadOf (metadata : Fields) : Fields := (workspaceAdminDefaultsPayload metadata).1

def wrappedOf (metadata : Fields) : Bool := (workspaceAdminDefaultsPayload metadata).2

def transactionsOf (metadata : Fields) : List Fields := workspaceCreditTransactions (payloadOf metadata)

/-- The balance that a debit starts from. -/
def balanceOf (metadata : Fields) : Int := currentBalance metadata (payloadOf metadata)

theorem payload_eq (metadata : Fields) :
    workspaceAdminDefaultsPayload metadata = (payloadOf metadata, wrappedOf metadata) := rfl

theorem payload_not_object {metadata : Fields} (h : wrappedOf metadata = false) (fields : Fields) :
    (payloadOf metadata).get "payload" ≠ .object fields := by
  intro heq
  unfold wrappedOf at h
  unfold payloadOf at heq
  unfold workspaceAdminDefaultsPayload at h heq
  cases hget : (coerceDict (metadata.get "admin_defaults")).get "payload" <;> simp_all

/-- A payload with the same key `payload` (or none) is read back as it was written. -/
theorem read_written (metadata : Fields) {payload : Fields}
    (h : payload.get "payload" = (payloadOf metadata).get "payload") :
    workspaceAdminDefaultsPayload (withWorkspaceAdminDefaultsPayload metadata payload (wrappedOf metadata)) =
      (payload, wrappedOf metadata) := by
  have hget : (withWorkspaceAdminDefaultsPayload metadata payload (wrappedOf metadata)).get "admin_defaults" =
      .object (if wrappedOf metadata then [("payload", .object payload)] else payload) := by
    simp [withWorkspaceAdminDefaultsPayload]
  unfold workspaceAdminDefaultsPayload
  rw [hget]
  cases hwrapped : wrappedOf metadata with
  | true => simp [coerceDict, Fields.get]
  | false =>
    have hplain : ∀ fields, payload.get "payload" ≠ .object fields := by
      intro fields
      rw [h]
      exact payload_not_object hwrapped fields
    simp only [coerceDict, Bool.false_eq_true, if_false]

theorem billing_written (metadata payload : Fields) (wrapped : Bool) :
    (withWorkspaceAdminDefaultsPayload metadata payload wrapped).get "billing" = metadata.get "billing" := by
  simp [withWorkspaceAdminDefaultsPayload]

theorem lookup_withBalance (payload : Fields) (balance : Int) (transactions : List Fields) :
    (withBalance payload balance transactions).lookup balanceKey = some (.int balance) := by
  simp [withBalance, Fields.lookup_put, balanceKey]

theorem payload_withBalance (payload : Fields) (balance : Int) (transactions : List Fields) :
    (withBalance payload balance transactions).get "payload" = payload.get "payload" := by
  simp [withBalance, balanceKey]

theorem transactions_withBalance (payload : Fields) (balance : Int) (transactions : List Fields) :
    workspaceCreditTransactions (withBalance payload balance transactions) = transactions := by
  have hdicts : ∀ ts : List Fields, (ts.map Value.object).filterMap asDict = ts := by
    intro ts
    induction ts with
    | nil => rfl
    | cons t ts ih => simp [asDict, ih]
  simp only [workspaceCreditTransactions, withBalance, Fields.get_put, if_true]
  exact hdicts transactions

theorem balanceIn_nonneg (section_ : Fields) : 0 ≤ balanceIn section_ := le_max_left 0 _

theorem balanceOf_nonneg (metadata : Fields) : 0 ≤ balanceOf metadata := by
  unfold balanceOf currentBalance
  split
  · exact balanceIn_nonneg _
  · exact le_trans (balanceIn_nonneg _) (le_max_left _ _)

/-- A stored balance is what the next debit starts from. -/
theorem currentBalance_stored {metadata payload : Fields} {balance : Int}
    (h : payload.lookup balanceKey = some (.int balance)) (hpos : 0 ≤ balance) :
    currentBalance metadata payload = balance := by
  simp [currentBalance, h, balanceIn, Fields.get, billingFloat, usd, hpos]

/-! ### What one debit adds -/

/-- The balance that is stored, if one is. -/
def Stored (metadata : Fields) : Prop :=
  ∀ value, (payloadOf metadata).lookup balanceKey = some value → ∃ amount, 0 ≤ amount ∧ value = .int amount

/-- A debit has appended these entries, and the balance has moved by their amounts. -/
structure Adds (before after : Fields) (entries : List Fields) : Prop where
  wrapped : wrappedOf after = wrappedOf before
  whole : after.lookup "admin_defaults" =
    some (.object (if wrappedOf after then [("payload", .object (payloadOf after))] else payloadOf after))
  transactions : transactionsOf after = transactionsOf before ++ entries
  stored : (payloadOf after).lookup balanceKey = some (.int (balanceOf after))
  balance : balanceOf after = balanceOf before + (entries.map amountOf).sum

theorem adds_written {metadata payload : Fields} {balance : Int} {entries : List Fields}
    (hpayload : payload.get "payload" = (payloadOf metadata).get "payload")
    (hstored : payload.lookup balanceKey = some (.int balance)) (hpos : 0 ≤ balance)
    (htransactions : workspaceCreditTransactions payload = transactionsOf metadata ++ entries)
    (hbalance : balance = balanceOf metadata + (entries.map amountOf).sum) :
    Adds metadata (withWorkspaceAdminDefaultsPayload metadata payload (wrappedOf metadata)) entries := by
  have hread := read_written metadata hpayload
  have hp : payloadOf (withWorkspaceAdminDefaultsPayload metadata payload (wrappedOf metadata)) = payload :=
    congrArg Prod.fst hread
  have hw : wrappedOf (withWorkspaceAdminDefaultsPayload metadata payload (wrappedOf metadata)) =
      wrappedOf metadata := by rw [wrappedOf, hread]
  have hb : balanceOf (withWorkspaceAdminDefaultsPayload metadata payload (wrappedOf metadata)) = balance := by
    rw [balanceOf, hp]
    exact currentBalance_stored hstored hpos
  refine ⟨hw, ?_, ?_, ?_, ?_⟩
  · rw [hw, hp, withWorkspaceAdminDefaultsPayload, Fields.lookup_put, if_pos rfl]
  · rw [transactionsOf, hp, htransactions]
  · rw [hp, hb, hstored]
  · rw [hb, hbalance]

theorem roundQuotient_nonneg {n d : Int} (hn : 0 ≤ n) (hd : 0 < d) : 0 ≤ roundQuotient n d := by
  have hquotient : 0 ≤ n / d := Int.ediv_nonneg hn hd.le
  unfold roundQuotient
  split
  · exact hquotient
  split
  · omega
  split
  · exact hquotient
  · omega

theorem owedUsd_nonneg (turn : Turn) : 0 ≤ owedUsd turn := by
  unfold owedUsd
  split
  · exact le_refl 0
  · refine roundQuotient_nonneg (Int.mul_nonneg (le_max_left _ _) (by decide)) ?_
    exact lt_of_lt_of_le one_pos (le_max_left 1 _)

@[simp] theorem amountOf_transaction (kind : String) (amount credits : Int) (requestId usageMonth source : String)
    (createdAt : Int) :
    amountOf (transaction kind amount credits requestId usageMonth source createdAt) = amount := by
  simp [amountOf, transaction, Fields.get_cons, billingFloat, usd]

/-- The payload with the balance filled in. -/
def seeded (metadata : Fields) : Fields :=
  if ((payloadOf metadata).lookup balanceKey).isSome then payloadOf metadata
  else (payloadOf metadata).put balanceKey (.int (balanceOf metadata))

theorem seeded_payload (metadata : Fields) : (seeded metadata).get "payload" = (payloadOf metadata).get "payload" := by
  unfold seeded
  split
  · rfl
  · simp [balanceKey]

theorem seeded_transactions (metadata : Fields) :
    workspaceCreditTransactions (seeded metadata) = transactionsOf metadata := by
  unfold seeded
  split
  · rfl
  · simp [workspaceCreditTransactions, transactionsOf, balanceKey]

theorem seeded_balance {metadata : Fields} (h : Stored metadata) :
    (seeded metadata).lookup balanceKey = some (.int (balanceOf metadata)) := by
  unfold seeded
  cases hlookup : (payloadOf metadata).lookup balanceKey with
  | none => simp [Fields.lookup_put]
  | some value =>
    obtain ⟨amount, hpos, rfl⟩ := h value hlookup
    rw [balanceOf, currentBalance_stored hlookup hpos]
    simpa using hlookup

/-- What an overage writes: nothing, or one debit of what is due. -/
theorem overage_spec {metadata : Fields} {debit : Overage} (hstored : Stored metadata)
    (hnew : recorded env (transactionsOf metadata) debit.requestId.text = false) :
    ∃ entries overage, (buildWorkspaceCreditDebitResult env metadata debit).2.monthlyOverageUsd = some overage ∧
      Adds metadata (buildWorkspaceCreditDebitResult env metadata debit).1 entries ∧
      (entries = [] ∨ ∃ debited credits, 0 < debited ∧
        debitsOf env debit.usageMonth.text (transactionsOf metadata) + debited ≤ overage ∧
        entries = [transaction "usage_debit" (-debited) credits debit.requestId.text debit.usageMonth.text
          "hosted_sage_ai" debit.createdAt]) := by
  have hbalance : 0 ≤ balanceOf metadata := balanceOf_nonneg metadata
  have hnew' : recorded env (workspaceCreditTransactions (payloadOf metadata)) debit.requestId.text = false := hnew
  have hseeded : (if ((payloadOf metadata).lookup balanceKey).isSome = true then payloadOf metadata
      else (payloadOf metadata).put balanceKey (.int (currentBalance metadata (payloadOf metadata)))) =
      seeded metadata := rfl
  unfold buildWorkspaceCreditDebitResult
  rw [payload_eq]
  simp only [hnew', Bool.false_eq_true, if_false, hseeded]
  generalize hcap : max 0 (billingFloat ((seeded metadata).get "hosted_sage_ai_monthly_cap_usd")
    debit.monthlyCapUsd) = cap
  generalize hover : max 0 (max 0 debit.monthlyCostUsd - cap) = overage
  have hmonth : workspaceCreditDebitsForMonth env (seeded metadata) debit.usageMonth.text =
      debitsOf env debit.usageMonth.text (transactionsOf metadata) := by
    rw [workspaceCreditDebitsForMonth, seeded_transactions]
  rw [hmonth]
  generalize hneeded : max 0 (overage - debitsOf env debit.usageMonth.text (transactionsOf metadata)) = needed
  have hcurrent : currentBalance metadata (payloadOf metadata) = balanceOf metadata := rfl
  rw [hcurrent]
  by_cases hnone : min (balanceOf metadata) needed ≤ 0
  · simp only [hnone, if_true]
    refine ⟨[], overage, rfl, ?_, .inl rfl⟩
    exact adds_written (seeded_payload metadata) (seeded_balance hstored) hbalance
      (by rw [seeded_transactions, List.append_nil]) (by simp)
  · simp only [hnone, if_false]
    refine ⟨_, overage, rfl, adds_written ?_ (lookup_withBalance _ _ _) (le_max_left _ _)
      (transactions_withBalance _ _ _) ?_, .inr ⟨_, _, not_le.mp hnone, ?_, rfl⟩⟩
    · rw [payload_withBalance, seeded_payload]
    · simp only [List.map_cons, List.map_nil, amountOf_transaction, List.sum_cons, List.sum_nil]
      omega
    · omega

/-- The allowance makes the balance up to the floor. -/
theorem backfill_spec (transactions : List Fields) (current : Int) (turn : Turn) :
    (backfill env transactions current turn = [] ∨ hasGrant env transactions = false ∧
      current < max 0 turn.floorUsd ∧ ∃ credits, backfill env transactions current turn =
        [transaction "bonus" (max 0 turn.floorUsd - current) credits "" "" "safety_backfill_grant" turn.createdAt]) := by
  unfold backfill
  cases hgrant : hasGrant env transactions with
  | true => simp
  | false =>
    by_cases hlow : current < max 0 turn.floorUsd
    · exact .inr ⟨rfl, hlow, creditsFor (max 0 turn.floorUsd - current) turn.creditsPerUsd, by simp [hlow]⟩
    · simp [hlow]

/-- What a turn writes: the allowance or nothing, then its debit or nothing. -/
theorem turn_written {metadata : Fields} {turn : Turn}
    (hnew : recorded env (transactionsOf metadata) turn.requestId.text = false) :
    ∃ granted entries balance,
      (buildWorkspaceCreditTurnDebitResult env metadata turn).1 = withWorkspaceAdminDefaultsPayload metadata
        (withBalance (payloadOf metadata) balance (transactionsOf metadata ++ granted ++ entries))
        (wrappedOf metadata) ∧
      0 ≤ balance ∧ granted = backfill env (transactionsOf metadata) (balanceOf metadata) turn ∧
      (entries = [] ∨ ∃ debited credits source, 0 < debited ∧
        entries = [transaction "usage_debit" (-debited) credits turn.requestId.text "" source turn.createdAt]) ∧
      balance = balanceOf metadata + (granted.map amountOf).sum + (entries.map amountOf).sum ∧
      (entries.map amountOf).sum = -(buildWorkspaceCreditTurnDebitResult env metadata turn).2.debitedUsd := by
  have hbalance : 0 ≤ balanceOf metadata := balanceOf_nonneg metadata
  have howed : 0 ≤ owedUsd turn := owedUsd_nonneg turn
  have hnew' : recorded env (workspaceCreditTransactions (payloadOf metadata)) turn.requestId.text = false := hnew
  have hcurrent : currentBalance metadata (payloadOf metadata) = balanceOf metadata := rfl
  unfold buildWorkspaceCreditTurnDebitResult
  rw [payload_eq]
  simp only [hnew', Bool.false_eq_true, if_false, hcurrent]
  have hgranted := backfill_spec env (workspaceCreditTransactions (payloadOf metadata)) (balanceOf metadata) turn
  generalize hback : backfill env (workspaceCreditTransactions (payloadOf metadata)) (balanceOf metadata) turn = granted
    at hgranted ⊢
  -- the balance after the allowance, which the debit is taken from
  have hlevel : ∃ level, (if granted = [] then balanceOf metadata else max 0 turn.floorUsd) = level ∧ 0 ≤ level ∧
      level = balanceOf metadata + (granted.map amountOf).sum := by
    obtain rfl | ⟨-, hlow, credits, rfl⟩ := hgranted
    · exact ⟨_, rfl, by simpa using hbalance, by simp⟩
    · refine ⟨_, rfl, by simp, ?_⟩
      simp only [reduceCtorEq, if_false, List.map_cons, List.map_nil, amountOf_transaction, List.sum_cons,
        List.sum_nil]
      omega
  obtain ⟨level, hlevel, hpos, hsum⟩ := hlevel
  rw [hlevel]
  by_cases hdebited : 0 < min level (owedUsd turn)
  · simp only [hdebited, if_true]
    refine ⟨granted, _, _, rfl, le_max_left _ _, hback.symm, .inr ⟨_, _, _, hdebited, rfl⟩, ?_, ?_⟩
    · simp only [List.map_cons, List.map_nil, amountOf_transaction, List.sum_cons, List.sum_nil]
      omega
    · simp
  · simp only [hdebited, if_false]
    refine ⟨granted, [], _, rfl, le_max_left _ _, hback.symm, .inl rfl, ?_, ?_⟩
    · simp only [List.map_nil, List.sum_nil]
      omega
    · simp only [List.map_nil, List.sum_nil]
      omega

/-- What a turn writes: the grant where there was none, and at most one debit. -/
theorem turn_spec {metadata : Fields} {turn : Turn}
    (hnew : recorded env (transactionsOf metadata) turn.requestId.text = false) :
    ∃ granted entries, Adds metadata (buildWorkspaceCreditTurnDebitResult env metadata turn).1 (granted ++ entries) ∧
      (granted = [] ∨ hasGrant env (transactionsOf metadata) = false ∧ ∃ amount credits,
        granted = [transaction "bonus" amount credits "" "" "safety_backfill_grant" turn.createdAt]) ∧
      (entries = [] ∨ ∃ debited credits source, 0 < debited ∧
        entries = [transaction "usage_debit" (-debited) credits turn.requestId.text "" source turn.createdAt]) := by
  obtain ⟨granted, entries, balance, heq, hpos, hgranted, hentries, hbalance, -⟩ := turn_written env hnew
  refine ⟨granted, entries, ?_, ?_, hentries⟩
  · rw [heq]
    refine adds_written (payload_withBalance _ _ _) (lookup_withBalance _ _ _) hpos ?_ ?_
    · rw [transactions_withBalance, List.append_assoc]
    · rw [List.map_append, List.sum_append, hbalance]
      omega
  · obtain hnone | ⟨hgrant, -, credits, hsome⟩ :=
      backfill_spec env (transactionsOf metadata) (balanceOf metadata) turn
    · exact .inl (hgranted.trans hnone)
    · exact .inr ⟨hgrant, _, credits, hgranted.trans hsome⟩

/-! ### Sequences of debits -/

/-- The two kinds of a debit. -/
inductive Debit where
  | overage (debit : Overage)
  | turn (debit : Turn)

def Debit.requestId : Debit → Token
  | .overage debit => debit.requestId
  | .turn debit => debit.requestId

/-- The metadata after a debit, and its result. -/
def perform (metadata : Fields) : Debit → Fields × Result
  | .overage debit => buildWorkspaceCreditDebitResult env metadata debit
  | .turn debit => buildWorkspaceCreditTurnDebitResult env metadata debit

/-- The month and the overage that a debit reports. -/
def report (debit : Debit) (result : Result) : Option (String × Int) :=
  match debit with
  | .overage overage => result.monthlyOverageUsd.map fun amount => (overage.usageMonth.text, amount)
  | .turn _ => none

/-- The metadata after the debits, and the overages that they have reported. -/
def performAll : Fields → List Debit → Fields × List (String × Int)
  | metadata, [] => (metadata, [])
  | metadata, debit :: debits =>
    let (next, result) := perform env metadata debit
    let (last, reports) := performAll next debits
    (last, (report debit result).toList ++ reports)

/-- The largest overage reported for a month. -/
def largestOverage (month : String) (reports : List (String × Int)) : Int :=
  ((reports.filter fun r => r.1 = month).map Prod.snd).foldr max 0

/-- A debit of the usage under a request id. -/
def debitBy (requestId : String) (transaction : Fields) : Bool :=
  isUsageDebit env transaction && text env transaction "request_id" = requestId

/-- The bonus of the backfill. -/
def isGrant (transaction : Fields) : Bool :=
  env.lowercase.lower (text env transaction "kind") = "bonus" &&
    text env transaction "source" = "safety_backfill_grant"

/-! ### The entries of a debit -/

section Entry

variable (kind : String) (amount credits : Int) (requestId usageMonth source : String) (createdAt : Int)

theorem text_transaction :
    text env (transaction kind amount credits requestId usageMonth source createdAt) "kind" = strip kind ∧
      text env (transaction kind amount credits requestId usageMonth source createdAt) "request_id" =
        strip requestId ∧
      text env (transaction kind amount credits requestId usageMonth source createdAt) "usage_month" =
        strip usageMonth ∧
      text env (transaction kind amount credits requestId usageMonth source createdAt) "source" = strip source := by
  simp only [text, transaction, Fields.get_cons, String.reduceEq, if_true, if_false, Value.token_string,
    and_self]

theorem lower_debit : env.lowercase.lower (strip "usage_debit") = "usage_debit" :=
  env.lowercase.token_plain (Lowercase.plain_of_all (by decide))

theorem lower_bonus : env.lowercase.lower (strip "bonus") = "bonus" :=
  env.lowercase.token_plain (Lowercase.plain_of_all (by decide))

theorem debitBy_debit (requestId : Token) (id : String) :
    debitBy env id (transaction "usage_debit" amount credits requestId.text usageMonth source createdAt) =
      decide (id = requestId.text) := by
  obtain ⟨hkind, hrequest, -, -⟩ :=
    text_transaction env "usage_debit" amount credits requestId.text usageMonth source createdAt
  rw [debitBy, isUsageDebit, hkind, hrequest, lower_debit, requestId.trimmed]
  simp [eq_comm]

theorem debitBy_bonus (id : String) :
    debitBy env id (transaction "bonus" amount credits requestId usageMonth source createdAt) = false := by
  obtain ⟨hkind, -⟩ := text_transaction env "bonus" amount credits requestId usageMonth source createdAt
  rw [debitBy, isUsageDebit, hkind, lower_bonus]
  simp

theorem isGrant_debit :
    isGrant env (transaction "usage_debit" amount credits requestId usageMonth source createdAt) = false := by
  obtain ⟨hkind, -⟩ := text_transaction env "usage_debit" amount credits requestId usageMonth source createdAt
  rw [isGrant, hkind, lower_debit]
  simp

theorem inMonth_debit (month : String) :
    inMonth env month (transaction "usage_debit" amount credits requestId usageMonth source createdAt) =
      decide (month = strip usageMonth) := by
  obtain ⟨hkind, -, hmonth, -⟩ :=
    text_transaction env "usage_debit" amount credits requestId usageMonth source createdAt
  rw [inMonth, isUsageDebit, hkind, hmonth, lower_debit]
  simp [eq_comm]

theorem inMonth_bonus (month : String) :
    inMonth env month (transaction "bonus" amount credits requestId usageMonth source createdAt) = false := by
  obtain ⟨hkind, -⟩ := text_transaction env "bonus" amount credits requestId usageMonth source createdAt
  rw [inMonth, isUsageDebit, hkind, lower_bonus]
  simp

end Entry

/-- The limits on what one debit appends. -/
structure Entries (metadata : Fields) (debit : Debit) (result : Result) (entries : List Fields) : Prop where
  debits : ∀ id, entries.countP (debitBy env id) ≤ if id = debit.requestId.text then 1 else 0
  grants : entries.countP (isGrant env) ≤ if hasGrant env (transactionsOf metadata) then 0 else 1
  month : ∀ month : Token, debitsOf env month.text entries = 0 ∨
    ∃ overage, report debit result = some (month.text, overage) ∧
      debitsOf env month.text (transactionsOf metadata) + debitsOf env month.text entries ≤ overage

theorem entries_nil (metadata : Fields) (debit : Debit) (result : Result) :
    Entries env metadata debit result [] :=
  ⟨fun _ => by simp, by simp, fun _ => .inl rfl⟩

theorem overage_entries {metadata : Fields} {debit : Overage} {result : Result} {debited credits overage : Int}
    (hreport : result.monthlyOverageUsd = some overage) (hpos : 0 < debited)
    (hmonth : debitsOf env debit.usageMonth.text (transactionsOf metadata) + debited ≤ overage) :
    Entries env metadata (.overage debit) result
      [transaction "usage_debit" (-debited) credits debit.requestId.text debit.usageMonth.text "hosted_sage_ai"
        debit.createdAt] where
  debits id := by
    by_cases h : id = debit.requestId.text
    · simp [debitBy_debit, Debit.requestId, h]
    · simp [debitBy_debit, Debit.requestId, h]
  grants := by simp [isGrant_debit]
  month month := by
    by_cases heq : month.text = debit.usageMonth.text
    · right
      refine ⟨overage, by simp [report, hreport, heq], ?_⟩
      rw [heq]
      simpa [debitsOf, inMonth_debit, debit.usageMonth.trimmed, abs_of_pos hpos] using hmonth
    · left
      simp [debitsOf, inMonth_debit, debit.usageMonth.trimmed, heq]

theorem turn_entries {metadata : Fields} {turn : Turn} {result : Result} {granted entries : List Fields}
    (hgranted : granted = [] ∨ hasGrant env (transactionsOf metadata) = false ∧ ∃ amount credits,
      granted = [transaction "bonus" amount credits "" "" "safety_backfill_grant" turn.createdAt])
    (hentries : entries = [] ∨ ∃ debited credits source, 0 < debited ∧
      entries = [transaction "usage_debit" (-debited) credits turn.requestId.text "" source turn.createdAt]) :
    Entries env metadata (.turn turn) result (granted ++ entries) := by
  have hgrant : granted.countP (isGrant env) ≤ (if hasGrant env (transactionsOf metadata) then 0 else 1) ∧
      (∀ id, granted.countP (debitBy env id) = 0) ∧ ∀ month : Token, debitsOf env month.text granted = 0 := by
    obtain rfl | ⟨hnew, amount, credits, rfl⟩ := hgranted
    · exact ⟨by simp, fun _ => rfl, fun _ => rfl⟩
    · refine ⟨?_, fun id => by simp [debitBy_bonus], fun month => by simp [debitsOf, inMonth_bonus]⟩
      rw [if_neg (by simp [hnew])]
      exact List.countP_le_length
  have hentry : entries.countP (isGrant env) = 0 ∧
      (∀ id, entries.countP (debitBy env id) ≤ if id = turn.requestId.text then 1 else 0) ∧
      ∀ month : Token, debitsOf env month.text entries = 0 := by
    obtain rfl | ⟨debited, credits, source, -, rfl⟩ := hentries
    · exact ⟨rfl, fun _ => by simp, fun _ => rfl⟩
    · refine ⟨by simp [isGrant_debit], fun id => by simp [debitBy_debit], fun month => ?_⟩
      have hblank : month.text ≠ strip "" := by
        rw [strip_empty]
        exact month.written
      simp [debitsOf, inMonth_debit, hblank]
  refine ⟨fun id => ?_, ?_, fun month => .inl ?_⟩
  · rw [List.countP_append, hgrant.2.1 id, zero_add]
    exact hentry.2.1 id
  · rw [List.countP_append, hentry.1, add_zero]
    exact hgrant.1
  · have hsum : debitsOf env month.text (granted ++ entries) =
        debitsOf env month.text granted + debitsOf env month.text entries := by
      simp [debitsOf]
    rw [hsum, hgrant.2.2, hentry.2.2, add_zero]

/-- A debit whose request is not recorded yet. -/
theorem perform_spec {metadata : Fields} {debit : Debit} (hstored : Stored metadata)
    (hnew : recorded env (transactionsOf metadata) debit.requestId.text = false) :
    ∃ entries, Adds metadata (perform env metadata debit).1 entries ∧
      Entries env metadata debit (perform env metadata debit).2 entries := by
  cases debit with
  | overage debit =>
    obtain ⟨entries, overage, hreport, hadds, rfl | ⟨debited, credits, hpos, hmonth, rfl⟩⟩ :=
      overage_spec env hstored hnew
    · exact ⟨[], hadds, entries_nil env metadata _ _⟩
    · exact ⟨_, hadds, overage_entries env hreport hpos hmonth⟩
  | turn turn =>
    obtain ⟨granted, entries, hadds, hgranted, hentries⟩ := turn_spec env hnew
    exact ⟨_, hadds, turn_entries env hgranted hentries⟩

/-- The record is written as a debit would write it, once there are transactions. -/
def Whole (metadata : Fields) : Prop :=
  transactionsOf metadata ≠ [] → metadata.lookup "admin_defaults" = some (.object
    (if wrappedOf metadata then [("payload", .object (payloadOf metadata))] else payloadOf metadata))

theorem overage_recorded {metadata : Fields} {debit : Overage}
    (hold : recorded env (transactionsOf metadata) debit.requestId.text = true) :
    buildWorkspaceCreditDebitResult env metadata debit =
      (withWorkspaceAdminDefaultsPayload metadata (payloadOf metadata) (wrappedOf metadata),
        ⟨0, some "already_recorded", none, none, 0, 0, false, false⟩) := by
  have hold' : recorded env (workspaceCreditTransactions (payloadOf metadata)) debit.requestId.text = true := hold
  unfold buildWorkspaceCreditDebitResult
  rw [payload_eq]
  simp only [hold', if_true]

theorem turn_recorded {metadata : Fields} {turn : Turn}
    (hold : recorded env (transactionsOf metadata) turn.requestId.text = true) :
    buildWorkspaceCreditTurnDebitResult env metadata turn =
      (withWorkspaceAdminDefaultsPayload metadata (payloadOf metadata) (wrappedOf metadata),
        ⟨0, some "already_recorded", some (balanceIn (payloadOf metadata)), none, max 0 turn.creditsToCharge, 0,
          false, false⟩) := by
  have hold' : recorded env (workspaceCreditTransactions (payloadOf metadata)) turn.requestId.text = true := hold
  unfold buildWorkspaceCreditTurnDebitResult
  rw [payload_eq]
  simp only [hold', if_true]

/-- What is written back unchanged is read as before. -/
theorem balance_rewritten (metadata : Fields) :
    payloadOf (withWorkspaceAdminDefaultsPayload metadata (payloadOf metadata) (wrappedOf metadata)) =
        payloadOf metadata ∧
      wrappedOf (withWorkspaceAdminDefaultsPayload metadata (payloadOf metadata) (wrappedOf metadata)) =
        wrappedOf metadata ∧
      balanceOf (withWorkspaceAdminDefaultsPayload metadata (payloadOf metadata) (wrappedOf metadata)) =
        balanceOf metadata := by
  have hread := read_written metadata (rfl : (payloadOf metadata).get "payload" = (payloadOf metadata).get "payload")
  have hp : payloadOf (withWorkspaceAdminDefaultsPayload metadata (payloadOf metadata) (wrappedOf metadata)) =
      payloadOf metadata := by rw [payloadOf, hread]
  refine ⟨hp, by rw [wrappedOf, hread], ?_⟩
  rw [balanceOf, hp, currentBalance, billing_written, balanceOf, currentBalance]

/-- A debit whose request is recorded leaves every key as it is. -/
theorem perform_recorded {metadata : Fields} {debit : Debit} (hwhole : Whole metadata)
    (hold : recorded env (transactionsOf metadata) debit.requestId.text = true) :
    (∀ key, (perform env metadata debit).1.lookup key = metadata.lookup key) ∧
      (perform env metadata debit).1 =
        withWorkspaceAdminDefaultsPayload metadata (payloadOf metadata) (wrappedOf metadata) ∧
      (perform env metadata debit).2.debitedUsd = 0 ∧ report debit (perform env metadata debit).2 = none := by
  have hsome : transactionsOf metadata ≠ [] := by
    intro hnil
    rw [hnil] at hold
    simp [recorded] at hold
  have hkeys : ∀ key, (withWorkspaceAdminDefaultsPayload metadata (payloadOf metadata)
      (wrappedOf metadata)).lookup key = metadata.lookup key := by
    intro key
    rw [withWorkspaceAdminDefaultsPayload, Fields.lookup_put]
    by_cases hkey : key = "admin_defaults"
    · rw [if_pos hkey, hkey]
      exact (hwhole hsome).symm
    · rw [if_neg hkey]
  cases debit with
  | overage debit =>
    simp only [perform, overage_recorded env hold]
    exact ⟨hkeys, trivial, trivial, by simp [report]⟩
  | turn turn =>
    simp only [perform, turn_recorded env hold]
    exact ⟨hkeys, trivial, trivial, rfl⟩

/-! ### Conservation -/

/-- A record of the shape that the server writes: the stored balance is an amount that is not negative,
    and an envelope with transactions holds nothing but its payload. -/
structure WellFormed (metadata : Fields) : Prop where
  stored : Stored metadata
  envelope : wrappedOf metadata = true → transactionsOf metadata ≠ [] →
    coerceDict (metadata.get "admin_defaults") = [("payload", .object (payloadOf metadata))]

theorem WellFormed.whole {metadata : Fields} (h : WellFormed metadata) : Whole metadata := by
  intro hsome
  have hdict : coerceDict (metadata.get "admin_defaults") =
      if wrappedOf metadata then [("payload", .object (payloadOf metadata))] else payloadOf metadata := by
    cases hwrapped : wrappedOf metadata with
    | true => simpa using h.envelope hwrapped hsome
    | false =>
      unfold wrappedOf payloadOf workspaceAdminDefaultsPayload at *
      cases hget : (coerceDict (metadata.get "admin_defaults")).get "payload" <;> simp_all
  have hne : coerceDict (metadata.get "admin_defaults") ≠ [] := by
    intro hnil
    have hpayload : payloadOf metadata = [] := by
      simp only [payloadOf, workspaceAdminDefaultsPayload, hnil]
      rfl
    rw [transactionsOf, hpayload] at hsome
    exact hsome rfl
  rw [← hdict]
  unfold Fields.get at hne ⊢
  cases hlookup : metadata.lookup "admin_defaults" with
  | none => simp [hlookup, coerceDict] at hne
  | some value =>
    rw [hlookup, Option.getD_some] at hne
    cases value with
    | object fields => rfl
    | _ => exact absurd rfl hne

/-- What holds of the metadata after debits that have appended these transactions and reported these
    overages. -/
structure Conserved (start metadata : Fields) (added : List Fields) (reports : List (String × Int)) : Prop where
  transactions : transactionsOf metadata = transactionsOf start ++ added
  balance : balanceOf metadata = balanceOf start + (added.map amountOf).sum
  stored : Stored metadata
  whole : Whole metadata
  once : ∀ id, added.countP (debitBy env id) ≤ if recorded env (transactionsOf start) id then 0 else 1
  grants : added.countP (isGrant env) ≤ if hasGrant env (transactionsOf start) then 0 else 1
  months : ∀ month : Token, debitsOf env month.text added ≤ largestOverage month.text reports

variable {env}

theorem recorded_append (a b : List Fields) (id : String) :
    recorded env (a ++ b) id = (recorded env a id || recorded env b id) := List.any_append

theorem recorded_of_debit {entries : List Fields} {id : String} (h : entries.countP (debitBy env id) ≠ 0) :
    recorded env entries id = true := by
  obtain ⟨entry, hmem, hdebit⟩ := List.countP_pos_iff.mp (Nat.pos_of_ne_zero h)
  refine List.any_eq_true.mpr ⟨entry, hmem, ?_⟩
  rw [debitBy, Bool.and_eq_true] at hdebit
  exact hdebit.2

theorem hasGrant_of_grant {entries : List Fields} (h : entries.countP (isGrant env) ≠ 0) :
    hasGrant env entries = true := by
  obtain ⟨entry, hmem, hgrant⟩ := List.countP_pos_iff.mp (Nat.pos_of_ne_zero h)
  refine List.any_eq_true.mpr ⟨entry, hmem, ?_⟩
  rw [isGrant, Bool.and_eq_true] at hgrant
  exact hgrant.2

theorem debitsOf_append (month : String) (a b : List Fields) :
    debitsOf env month (a ++ b) = debitsOf env month a + debitsOf env month b := by
  simp [debitsOf]

theorem debitsOf_nonneg (month : String) (transactions : List Fields) : 0 ≤ debitsOf env month transactions := by
  refine List.sum_nonneg fun amount hmem => ?_
  obtain ⟨t, -, rfl⟩ := List.mem_map.mp hmem
  exact abs_nonneg _

theorem foldr_max_nonneg (amounts : List Int) : 0 ≤ amounts.foldr max 0 := by
  induction amounts with
  | nil => exact le_refl 0
  | cons a amounts ih => exact le_trans ih (le_max_right _ _)

theorem foldr_max_append (a b : List Int) : (a ++ b).foldr max 0 = max (a.foldr max 0) (b.foldr max 0) := by
  induction a with
  | nil => exact (max_eq_right (foldr_max_nonneg b)).symm
  | cons x a ih => rw [List.cons_append, List.foldr_cons, List.foldr_cons, ih, max_assoc]

theorem largestOverage_append (month : String) (a b : List (String × Int)) :
    largestOverage month (a ++ b) = max (largestOverage month a) (largestOverage month b) := by
  rw [largestOverage, List.filter_append, List.map_append, foldr_max_append]
  rfl

variable {start metadata : Fields} {added : List Fields} {reports : List (String × Int)}

/-- Entries that are added with their sum conserve the balance. -/
theorem conserved_adds {debit : Debit} {result : Result} {next : Fields} {entries : List Fields}
    (h : Conserved env start metadata added reports) (hadds : Adds metadata next entries)
    (hnew : recorded env (transactionsOf metadata) debit.requestId.text = false)
    (hentries : Entries env metadata debit result entries) :
    Conserved env start next (added ++ entries) (reports ++ (report debit result).toList) where
  transactions := by rw [hadds.transactions, h.transactions, List.append_assoc]
  balance := by
    rw [hadds.balance, h.balance, List.map_append, List.sum_append]
    omega
  stored := by
    intro value hvalue
    rw [hadds.stored, Option.some.injEq] at hvalue
    exact ⟨balanceOf next, balanceOf_nonneg next, hvalue.symm⟩
  whole := fun _ => hadds.whole
  once := by
    intro id
    have hbefore : added.countP (debitBy env id) ≤ if recorded env (transactionsOf start) id then 0 else 1 := h.once id
    have hhere : entries.countP (debitBy env id) ≤ if id = debit.requestId.text then 1 else 0 := hentries.debits id
    rw [List.countP_append]
    by_cases hid : id = debit.requestId.text
    · -- no transaction has this request yet
      rw [h.transactions, recorded_append, Bool.or_eq_false_iff, ← hid] at hnew
      have hnone : added.countP (debitBy env id) = 0 := by
        by_contra hsome
        simp [recorded_of_debit hsome] at hnew
      rw [hnone, zero_add, hnew.1]
      simpa [hid] using hhere
    · rw [if_neg hid] at hhere
      omega
  grants := by
    have hbefore : added.countP (isGrant env) ≤ if hasGrant env (transactionsOf start) then 0 else 1 := h.grants
    have hhere : entries.countP (isGrant env) ≤ if hasGrant env (transactionsOf metadata) then 0 else 1 :=
      hentries.grants
    rw [List.countP_append]
    cases hgrant : hasGrant env (transactionsOf metadata) with
    | true =>
      rw [hgrant, if_pos rfl] at hhere
      omega
    | false =>
      rw [hgrant] at hhere
      rw [h.transactions, hasGrant, List.any_append, Bool.or_eq_false_iff] at hgrant
      have hnone : added.countP (isGrant env) = 0 := by
        by_contra hsome
        have hgranted : hasGrant env added = true := hasGrant_of_grant hsome
        rw [hasGrant, hgrant.2] at hgranted
        exact absurd hgranted (by decide)
      have hstart : hasGrant env (transactionsOf start) = false := hgrant.1
      rw [hnone, zero_add, hstart]
      simpa using hhere
  months := by
    intro month
    have hbefore : debitsOf env month.text added ≤ largestOverage month.text reports := h.months month
    rw [debitsOf_append, largestOverage_append]
    obtain hnone | ⟨overage, hreport, hlimit⟩ := hentries.month month
    · rw [hnone, add_zero]
      exact le_trans hbefore (le_max_left _ _)
    · refine le_trans ?_ (le_max_right _ _)
      have hstart : 0 ≤ debitsOf env month.text (transactionsOf start) := debitsOf_nonneg month.text _
      rw [h.transactions, debitsOf_append] at hlimit
      have hlargest : overage ≤ largestOverage month.text (report debit result).toList := by
        simp [hreport, largestOverage]
      omega

/-- A repeated debit: what it writes reads as before. -/
theorem conserved_recorded {debit : Debit} (h : Conserved env start metadata added reports)
    (hold : recorded env (transactionsOf metadata) debit.requestId.text = true) :
    Conserved env start (perform env metadata debit).1 added
      (reports ++ (report debit (perform env metadata debit).2).toList) := by
  obtain ⟨hkeys, heq, -, hreport⟩ := perform_recorded env h.whole hold
  obtain ⟨hp, hw, hb⟩ := balance_rewritten metadata
  rw [← heq] at hp hw hb
  have ht : transactionsOf (perform env metadata debit).1 = transactionsOf metadata := by
    rw [transactionsOf, hp, transactionsOf]
  rw [hreport, Option.toList_none, List.append_nil]
  exact
    { transactions := ht.trans h.transactions
      balance := hb.trans h.balance
      stored := by
        intro value hvalue
        rw [hp] at hvalue
        exact h.stored value hvalue
      whole := by
        intro hsome
        rw [hkeys, hw, hp]
        exact h.whole (ht ▸ hsome)
      once := h.once
      grants := h.grants
      months := h.months }

/-- So does a sequence of debits. -/
theorem conserved_all (debits : List Debit) : ∀ {metadata : Fields} {added : List Fields}
    {reports : List (String × Int)}, Conserved env start metadata added reports →
      ∃ more, Conserved env start (performAll env metadata debits).1 (added ++ more)
        (reports ++ (performAll env metadata debits).2) := by
  induction debits with
  | nil =>
    intro metadata added reports h
    exact ⟨[], by simpa [performAll] using h⟩
  | cons debit debits ih =>
    intro metadata added reports h
    obtain ⟨entries, hnext⟩ : ∃ entries, Conserved env start (perform env metadata debit).1 (added ++ entries)
        (reports ++ (report debit (perform env metadata debit).2).toList) := by
      cases hold : recorded env (transactionsOf metadata) debit.requestId.text with
      | true => exact ⟨[], by simpa using conserved_recorded h hold⟩
      | false =>
        obtain ⟨entries, hadds, hentries⟩ := perform_spec env h.stored hold
        exact ⟨entries, conserved_adds h hadds hold hentries⟩
    obtain ⟨more, hlast⟩ := ih hnext
    refine ⟨entries ++ more, ?_⟩
    simpa only [performAll, List.append_assoc] using hlast

theorem conserved_start (h : WellFormed start) : Conserved env start start [] [] where
  transactions := by rw [List.append_nil]
  balance := by simp
  stored := h.stored
  whole := h.whole
  once := fun _ => by simp
  grants := by simp
  months := fun _ => le_refl 0

/-- After any sequence of debits: the stored balance is not negative, it has moved by the transactions
    appended since the start, each request has at most one debit and the allowance is granted at most
    once (none if it was recorded before), a recorded request changes nothing, and the debits of a
    month come to no more than the largest overage reported for it. -/
theorem credit_debits_conserve (hstart : WellFormed start) (debits : List Debit) :
    ∃ added,
      Stored (performAll env start debits).1 ∧
      transactionsOf (performAll env start debits).1 = transactionsOf start ++ added ∧
      balanceOf (performAll env start debits).1 = balanceOf start + (added.map amountOf).sum ∧
      (∀ id, added.countP (debitBy env id) ≤ if recorded env (transactionsOf start) id then 0 else 1) ∧
      (added.countP (isGrant env) ≤ if hasGrant env (transactionsOf start) then 0 else 1) ∧
      (∀ debit : Debit, recorded env (transactionsOf (performAll env start debits).1) debit.requestId.text →
        (∀ key, (perform env (performAll env start debits).1 debit).1.lookup key =
          (performAll env start debits).1.lookup key) ∧
        (perform env (performAll env start debits).1 debit).2.debitedUsd = 0) ∧
      ∀ month : Token, debitsOf env month.text added ≤ largestOverage month.text (performAll env start debits).2 := by
  obtain ⟨added, h⟩ := conserved_all debits (@conserved_start env start hstart)
  rw [List.nil_append, List.nil_append] at h
  refine ⟨added, h.stored, h.transactions, h.balance, h.once, h.grants, fun debit hold => ?_, h.months⟩
  obtain ⟨hkeys, -, hzero, -⟩ := perform_recorded env h.whole hold
  exact ⟨hkeys, hzero⟩

def asciiTexts : Env := ⟨Lowercase.ascii, fun _ => ""⟩

/-- A new workspace: a dollar, in the billing section only. -/
def newWorkspace : Fields := [("billing", .object [(balanceKey, .int 1000000)])]

theorem payload_newWorkspace : workspaceAdminDefaultsPayload newWorkspace = ([], false) := by
  simp [workspaceAdminDefaultsPayload, newWorkspace, Fields.get, coerceDict, List.lookup_cons]

theorem wellFormed_newWorkspace : WellFormed newWorkspace where
  stored := by
    intro value hvalue
    rw [payloadOf, payload_newWorkspace] at hvalue
    cases hvalue
  envelope := by
    intro hwrapped
    rw [wrappedOf, payload_newWorkspace] at hwrapped
    cases hwrapped

def march : Token := ⟨"2026-03", by decide +kernel, by decide⟩

/-- A turn of 30 credits, then four dollars above the cap, which the rest of the dollar pays in part. -/
def twoDebits : List Debit :=
  [.turn ⟨⟨"r1", by decide +kernel, by decide⟩, 30, 0, 100, "", 0⟩,
    .overage ⟨⟨"r2", by decide +kernel, by decide⟩, march, 9000000, 5000000, 100, 0⟩]

theorem credit_debits_conserve_new :
    ∃ added, balanceOf (performAll asciiTexts newWorkspace twoDebits).1 =
        balanceOf newWorkspace + (added.map amountOf).sum ∧
      debitsOf asciiTexts march.text added ≤
        largestOverage march.text (performAll asciiTexts newWorkspace twoDebits).2 := by
  obtain ⟨added, -, -, hbalance, -, -, -, hmonths⟩ :=
    @credit_debits_conserve asciiTexts newWorkspace wellFormed_newWorkspace twoDebits
  exact ⟨added, hbalance, hmonths march⟩

end Empyralis.Server.Credits
