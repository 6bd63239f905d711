import Empyralis.Kernel.Authorization

/-! What the layers of an authorization decide, each asked on its own, and that the authorization decides as the
    strictest of them: an answer that comes early is never laxer than the one that the rest would give. -/

namespace Empyralis.Kernel.Authorization

namespace PolicyDecisionKind

/-- The stricter of two decisions. -/
def stricter (a b : PolicyDecisionKind) : PolicyDecisionKind := if a.severity ≤ b.severity then b else a

/-- The strictest of some decisions. -/
def strictest (decisions : List PolicyDecisionKind) : PolicyDecisionKind := decisions.foldr stricter .allow

@[simp] theorem strictest_nil : strictest [] = .allow := rfl

@[simp] theorem strictest_cons (k : PolicyDecisionKind) (ks : List PolicyDecisionKind) :
    strictest (k :: ks) = stricter k (strictest ks) := rfl

@[simp] theorem stricter_block (k : PolicyDecisionKind) : stricter .block k = .block := by
  cases k <;> rfl

@[simp] theorem stricter_allow (k : PolicyDecisionKind) : stricter .allow k = k := by
  cases k <;> rfl

theorem stricter_assoc (a b c : PolicyDecisionKind) : stricter (stricter a b) c = stricter a (stricter b c) := by
  cases a <;> cases b <;> cases c <;> rfl

@[simp] theorem strictest_append (ks ls : List PolicyDecisionKind) :
    strictest (ks ++ ls) = stricter (strictest ks) (strictest ls) := by
  induction ks with
  | nil => rw [List.nil_append, strictest_nil, stricter_allow]
  | cons k ks ih => rw [List.cons_append, strictest_cons, strictest_cons, ih, stricter_assoc]

theorem strictest_of_mem {ks : List PolicyDecisionKind} (h : .block ∈ ks) : strictest ks = .block := by
  induction ks with
  | nil => cases h
  | cons k ks ih =>
    rw [strictest_cons]
    rcases List.mem_cons.mp h with rfl | h
    · exact stricter_block _
    · rw [ih h]
      cases k <;> rfl

theorem strictest_eq_block {ks : List PolicyDecisionKind} : strictest ks = .block ↔ .block ∈ ks := by
  refine ⟨fun h => ?_, strictest_of_mem⟩
  induction ks with
  | nil => cases h
  | cons k ks ih =>
    rw [strictest_cons] at h
    cases hk : k with
    | block => exact List.mem_cons_self
    | allow =>
      rw [hk, stricter_allow] at h
      exact List.mem_cons_of_mem _ (ih h)
    | requireApproval =>
      refine List.mem_cons_of_mem _ (ih ?_)
      revert h
      rw [hk]
      cases strictest ks <;> decide

end PolicyDecisionKind

open PolicyDecisionKind

/-! ### The layers -/

/-- The safe mode can only block. -/
def safeModeLayer (input : Json) : PolicyDecisionKind :=
  if (safeModeDecisionCommand input).decision = .block then .block else .allow

/-- The context blocks, or asks for an approval. -/
def contextLayer (input : Json) : PolicyDecisionKind :=
  if (evaluatePolicyContext input).blockReason.isSome then .block
  else if (evaluatePolicyContext input).approvalReason.isSome then .requireApproval
  else .allow

/-- The policy of the request. -/
def policyLayer (policy : Policy) (capability : Capability) (input : Json) : PolicyDecisionKind :=
  (evaluateRequest policy capability.text (stringField input "requested_domain")
    (stringField input "requested_path")).kind

def riskLayer (input : Json) : PolicyDecisionKind := (classifyRiskCommand input).decision

def approvalLayer (capability : Capability) (input : Json) : PolicyDecisionKind :=
  (approvalRequirementCommand (approvalInput capability input (classifyRiskCommand input))).decision

/-- The policy and the capability that a request is about. -/
def subject (input : Json) : Option (Policy × Capability) :=
  match fromInput input, (stringField input "capability").bind normalizeCapability with
  | .ok policy, some capability => some (policy, capability)
  | _, _ => none

/-- The layers of a request; one without a subject is blocked. -/
def requestLayers (input : Json) : List PolicyDecisionKind :=
  match subject input with
  | none => [.block]
  | some (policy, capability) =>
    [safeModeLayer input, contextLayer input, policyLayer policy capability input, riskLayer input,
      approvalLayer capability input]

def planLayer (input : Json) : PolicyDecisionKind := (executionPlanCommand input).decision

/-- The layers of an execution: those of its request, and its plan. -/
def executionLayers (input : Json) : List PolicyDecisionKind :=
  requestLayers (authorizationPayload input) ++ [planLayer input]

/-! ### Approvals -/

theorem normalizeDecision_text (k : PolicyDecisionKind) : normalizeDecision k.text = k := by
  cases k <;> decide

theorem normalizeRiskLevel_text (level : RiskLevel) : normalizeRiskLevel level.text = level.text := by
  cases level <;> decide

@[simp] theorem present_decision_text (k : PolicyDecisionKind) : present k.text = some k.text := by
  cases k <;> decide

@[simp] theorem present_level_text (level : RiskLevel) : present level.text = some level.text := by
  cases level <;> decide

theorem RiskLevel.text_eq_low {level : RiskLevel} : level.text = "low" ↔ level = .low := by
  cases level <;> decide

section ApprovalInput
variable (capability : Capability) (input : Json) (risk : RiskReply)

theorem approvalInput_capability :
    stringField (approvalInput capability input risk) "capability" = some capability.text := by
  simp [stringField, approvalInput, Json.get, Json.asStr, List.lookup_cons]

theorem approvalInput_decision :
    stringField (approvalInput capability input risk) "decision" = some risk.decision.text := by
  simp [stringField, approvalInput, Json.get, Json.asStr, List.lookup_cons]

theorem approvalInput_riskLevel :
    stringFieldOr (approvalInput capability input risk) "risk_level" "risk_class" = some risk.level.text := by
  simp [stringFieldOr, stringField, approvalInput, Json.get, Json.asStr, List.lookup_cons]

/-- What the approvals make of a risk: they let through what is allowed at a low one. -/
theorem approvalRequirement_decision :
    (approvalRequirementCommand (approvalInput capability input risk)).decision =
      if risk.decision = .block then .block
      else if risk.decision = .allow ∧ risk.level = .low then .allow
      else .requireApproval := by
  unfold approvalRequirementCommand
  rw [approvalInput_capability, approvalInput_decision, approvalInput_riskLevel]
  simp only [normalizeCapability_text, Option.getD_some, normalizeDecision_text, normalizeRiskLevel_text,
    RiskLevel.text_eq_low]
  split
  · rfl
  · split <;> rfl

end ApprovalInput

/-! ### The strictest of the layers -/

/-- An authorization decides of a known capability as the strictest of the layers does: where one blocks, the ones
    that are not asked could not have made it stricter. -/
theorem authorizeCapability_decision (policy : Policy) (capability : Capability) (input : Json) :
    (authorizeCapability policy capability input).decision =
      strictest [safeModeLayer input, contextLayer input, policyLayer policy capability input, riskLayer input,
        approvalLayer capability input] := by
  unfold authorizeCapability
  dsimp only
  by_cases hsafe : (safeModeDecisionCommand input).decision = .block
  · have hlayer : safeModeLayer input = .block := if_pos hsafe
    rw [if_pos hsafe, strictest_of_mem (by simp [hlayer])]
    rfl
  rw [if_neg hsafe]
  have hsafe' : safeModeLayer input = .allow := if_neg hsafe
  cases hblock : (evaluatePolicyContext input).blockReason with
  | some reason =>
    have hlayer : contextLayer input = .block := if_pos (by rw [hblock]; rfl)
    rw [strictest_of_mem (by simp [hlayer])]
    rfl
  | none =>
    have hcontext : contextLayer input =
        if (evaluatePolicyContext input).approvalReason.isSome then .requireApproval else .allow :=
      if_neg (by rw [hblock]; exact Bool.false_ne_true)
    dsimp only
    split
    · rename_i hpolicy
      rw [strictest_of_mem (by simp [policyLayer, hpolicy])]
      rfl
    rename_i hpolicy
    split
    · rename_i hrisk
      rw [strictest_of_mem (by simp [riskLayer, hrisk])]
      rfl
    rename_i hrisk
    -- No layer blocks: an approval is asked for where one of them asks for it.
    have happroval : approvalLayer capability input = .requireApproval ∨
        approvalLayer capability input = .allow ∧ riskLayer input = .allow := by
      rw [approvalLayer, approvalRequirement_decision, if_neg hrisk]
      split
      · rename_i hlow
        exact .inr ⟨rfl, hlow.1⟩
      · exact .inl rfl
    rw [hsafe', hcontext]
    have hrequired : (approvalRequirementCommand (approvalInput capability input
        (classifyRiskCommand input))).approvalRequired =
        decide (approvalLayer capability input = .requireApproval) := rfl
    rw [← policyLayer] at hpolicy ⊢
    rw [← riskLayer] at hrisk ⊢
    rw [hrequired]
    rcases happroval with happroval | ⟨happroval, hallow⟩
    · rw [happroval]
      cases (evaluatePolicyContext input).approvalReason.isSome <;>
        cases hp : policyLayer policy capability input <;>
        cases hr : riskLayer input <;>
        first | rfl | exact absurd hp hpolicy | exact absurd hr hrisk
    · rw [happroval, hallow]
      cases (evaluatePolicyContext input).approvalReason.isSome <;>
        cases hp : policyLayer policy capability input <;>
        first | rfl | exact absurd hp hpolicy

theorem authorizeRequest_decision (input : Json) :
    (authorizeRequestCommand input).decision = strictest (requestLayers input) := by
  unfold authorizeRequestCommand requestLayers subject
  cases fromInput input with
  | error reason => rfl
  | ok policy =>
    cases stringField input "capability" with
    | none => rfl
    | some capabilityInput =>
      dsimp only [Option.bind_some]
      cases normalizeCapability capabilityInput with
      | none => rfl
      | some capability => exact authorizeCapability_decision policy capability input

/-- The authorization of an execution decides as the strictest of its layers does, and of the plan. -/
theorem authorizeExecution_decision (input : Json) :
    (authorizeExecutionCommand input).decision = strictest (executionLayers input) := by
  rw [executionLayers, strictest_append, ← authorizeRequest_decision, strictest_cons, strictest_nil]
  unfold authorizeExecutionCommand planLayer
  dsimp only
  generalize authorizeRequestCommand (authorizationPayload input) = authorization
  generalize executionPlanCommand input = plan
  cases hauthorization : authorization.decision <;> cases hplan : plan.decision <;> rfl

/-! ### What is allowed without an approval -/

theorem subject_eq_some {input : Json} {policy : Policy} {capability : Capability}
    (h : subject input = some (policy, capability)) :
    fromInput input = .ok policy ∧ normalizeCapability ((stringField input "capability").getD "") =
      some capability := by
  unfold subject at h
  split at h
  · rename_i hpolicy hcapability
    cases h
    obtain ⟨text, htext, hnormal⟩ := Option.bind_eq_some_iff.mp hcapability
    exact ⟨hpolicy, by rw [htext]; exact hnormal⟩
  · cases h

/-- What the risk of a request is, where nothing else stops it. -/
def riskOf (policy : Policy) (capability : Capability) (input : Json) : PolicyDecisionKind × RiskLevel :=
  let level := riskForCapability capability (actionClass input) (payloadText input)
  if policyLayer policy capability input = .block then (.block, .critical)
  else if policy.autonomyMode = .yolo then (.allow, .low)
  else if policyLayer policy capability input = .requireApproval ∨ level.severe = true then (.requireApproval, level)
  else (.allow, level)

/-- The risk is that of the policy, unless something is switched off or unhealthy. -/
theorem classifyRisk_eq {input : Json} {policy : Policy} {capability : Capability}
    (hsubject : subject input = some (policy, capability)) :
    ((classifyRiskCommand input).decision, (classifyRiskCommand input).level) =
      if currentKillState input = none ∧ computerProfileHealthState input = none then riskOf policy capability input
      else (.block, .critical) := by
  obtain ⟨hpolicy, hcapability⟩ := subject_eq_some hsubject
  unfold classifyRiskCommand
  cases currentKillState input with
  | some state => simp [riskResponse]
  | none =>
    cases computerProfileHealthState input with
    | some state => simp [riskResponse]
    | none =>
      rw [hpolicy, hcapability, if_pos ⟨rfl, rfl⟩]
      unfold riskOf policyLayer
      dsimp only
      by_cases hblock : (evaluateRequest policy capability.text (stringField input "requested_domain")
          (stringField input "requested_path")).kind = .block
      · rw [if_pos hblock, if_pos hblock]
        rfl
      rw [if_neg hblock, if_neg hblock]
      by_cases hmode : policy.autonomyMode = .yolo
      · rw [if_pos hmode, if_pos hmode]
        rfl
      rw [if_neg hmode, if_neg hmode]
      generalize riskForCapability capability (actionClass input) (payloadText input) = level
      simp only [Bool.or_eq_true, decide_eq_true_eq]
      split <;> rfl

theorem riskLayer_eq {input : Json} {policy : Policy} {capability : Capability}
    (hsubject : subject input = some (policy, capability)) :
    riskLayer input =
      if currentKillState input = none ∧ computerProfileHealthState input = none then (riskOf policy capability input).1
      else .block := by
  have h := congrArg Prod.fst (classifyRisk_eq hsubject)
  rw [apply_ite Prod.fst] at h
  exact h

/-- Beside the policy, only a kill state or a profile that is not healthy makes the risk block. -/
theorem riskLayer_eq_block {input : Json} {policy : Policy} {capability : Capability}
    (hsubject : subject input = some (policy, capability)) :
    riskLayer input = .block ↔ policyLayer policy capability input = .block ∨
      currentKillState input ≠ none ∨ computerProfileHealthState input ≠ none := by
  have hrisk : (riskOf policy capability input).1 = .block ↔ policyLayer policy capability input = .block := by
    unfold riskOf
    dsimp only
    generalize riskForCapability capability (actionClass input) (payloadText input) = level
    by_cases hmode : policy.autonomyMode = .yolo
    · rw [if_pos hmode]
      cases policyLayer policy capability input <;> decide
    · rw [if_neg hmode]
      cases policyLayer policy capability input <;> cases level <;> decide
  rw [riskLayer_eq hsubject]
  by_cases hstates : currentKillState input = none ∧ computerProfileHealthState input = none
  · rw [if_pos hstates, hrisk]
    simp [hstates]
  · rw [if_neg hstates]
    refine iff_of_true rfl (.inr ?_)
    rwa [← not_and_or]

theorem approvalLayer_eq_block (c : Capability) (input : Json) :
    approvalLayer c input = .block ↔ riskLayer input = .block := by
  rw [approvalLayer, approvalRequirement_decision, riskLayer]
  cases (classifyRiskCommand input).decision <;> cases (classifyRiskCommand input).level <;> decide

theorem block_mem_requestLayers {input : Json} {policy : Policy} {capability : Capability}
    (hsubject : subject input = some (policy, capability)) :
    .block ∈ requestLayers input ↔ safeModeLayer input = .block ∨ contextLayer input = .block ∨
      policyLayer policy capability input = .block ∨
      currentKillState input ≠ none ∨ computerProfileHealthState input ≠ none := by
  rw [requestLayers, hsubject]
  simp only [List.mem_cons, List.not_mem_nil, or_false, @eq_comm _ PolicyDecisionKind.block]
  rw [approvalLayer_eq_block, or_self, riskLayer_eq_block hsubject, or_self_left]

/-- An execution is refused for these reasons and no others: each of them is a stop that no policy, mode or context
    lifts. -/
theorem execution_stops (input : Json) :
    (authorizeExecutionCommand input).decision = .block ↔
      subject (authorizationPayload input) = none ∨
      safeModeLayer (authorizationPayload input) = .block ∨
      contextLayer (authorizationPayload input) = .block ∨
      (∃ policy capability, subject (authorizationPayload input) = some (policy, capability) ∧
        policyLayer policy capability (authorizationPayload input) = .block) ∨
      currentKillState (authorizationPayload input) ≠ none ∨
      computerProfileHealthState (authorizationPayload input) ≠ none ∨
      planLayer input = .block := by
  rw [authorizeExecution_decision, strictest_eq_block, executionLayers, List.mem_append, List.mem_singleton,
    @eq_comm _ PolicyDecisionKind.block]
  generalize authorizationPayload input = request
  cases hsubject : subject request with
  | none => simp [requestLayers, hsubject]
  | some found =>
    obtain ⟨policy, capability⟩ := found
    have hpolicy : (∃ p c, some (policy, capability) = some (p, c) ∧ policyLayer p c request = .block) ↔
        policyLayer policy capability request = .block := by
      refine ⟨?_, fun h => ⟨policy, capability, rfl, h⟩⟩
      rintro ⟨p, c, hsome, h⟩
      cases hsome
      exact h
    rw [block_mem_requestLayers hsubject, hpolicy]
    simp only [reduceCtorEq, false_or, or_assoc]

/-- A listing of files under the cautious mode. -/
def listing : Json :=
  .object [("action_class", .string "list"), ("capability", .string "file_read"),
    ("payload", .object [("path", .string "/workspace/notes")]),
    ("policy", .object [("autonomy_mode", .string "cautious"), ("policy_id", .string "p1")])]

end Empyralis.Kernel.Authorization
