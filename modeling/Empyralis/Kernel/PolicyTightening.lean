import Empyralis.Kernel.AuthorizationLayers

/-! A tighter policy is never answered more laxly: whatever else the request says, taking capabilities, domains and
    paths from a policy, or blocking more, cannot turn a refusal into an approval or an approval into a permission. -/

namespace Empyralis.Kernel.Authorization
open PolicyDecisionKind

/-! ### Requests that differ in their policies -/

@[simp] theorem lookup_insertAbsent (key : String) (value : Json) (fields : List (String × Json)) (other : String) :
    (insertAbsent key value fields).lookup other =
      if other = key then some ((fields.lookup key).getD value) else fields.lookup other := by
  unfold insertAbsent
  cases hkey : fields.lookup key with
  | some v =>
    rw [Option.isSome_some, if_pos rfl]
    split
    · rename_i heq
      rw [heq, hkey]
      rfl
    · rfl
  | none =>
    rw [Option.isSome_none, if_neg Bool.false_ne_true, List.lookup_append, List.lookup_cons]
    have hsplit : ((fields.takeWhile fun field => field.1 < key).lookup other).or
        ((fields.dropWhile fun field => field.1 < key).lookup other) = fields.lookup other := by
      rw [← List.lookup_append, List.takeWhile_append_dropWhile]
    by_cases heq : other = key
    · subst heq
      have htake : (fields.takeWhile fun field => field.1 < other).lookup other = none := by
        rw [hkey, Option.or_eq_none_iff] at hsplit
        exact hsplit.1
      rw [htake, Option.none_or, beq_self_eq_true, if_pos rfl]
      rfl
    · rw [if_neg heq, ← hsplit]
      have hbeq : (other == key) = false := beq_false_of_ne heq
      rw [hbeq]

/-- All that the requests say beside their policies is the same. -/
structure SameRequest (i j : Json) : Prop where
  object : (∃ fields, i = .object fields) ∧ ∃ fields, j = .object fields
  get : ∀ key, key ≠ "policy" → i.get key = j.get key

/-- The fields that `authorization_payload` puts in. -/
theorem authorizationPayload_object (fields : List (String × Json)) :
    ∃ payload, authorizationPayload (.object fields) = .object payload ∧
      payload.lookup "capability" = some ((fields.lookup "capability").getD (.string "shell_command")) ∧
      payload.lookup "action_class" = some ((fields.lookup "action_class").getD (.string "execute")) ∧
      payload.lookup "target_summary" =
        (fields.lookup "target_summary").or (((fields.lookup "command").bind Json.asStr).map .string) ∧
      ∀ key ∉ ["capability", "action_class", "target_summary"], payload.lookup key = fields.lookup key := by
  unfold authorizationPayload
  simp only [lookup_insertAbsent, if_neg (show "command" ≠ "action_class" by decide),
    if_neg (show "command" ≠ "capability" by decide)]
  cases (fields.lookup "command").bind Json.asStr with
  | none =>
    refine ⟨_, rfl, by simp, by simp, by simp, fun key hkey => ?_⟩
    simp only [List.mem_cons, List.not_mem_nil, or_false, not_or] at hkey
    simp [hkey]
  | some command =>
    refine ⟨_, rfl, by simp, by simp, ?_, fun key hkey => ?_⟩
    · cases h : fields.lookup "target_summary" <;> simp [h]
    · simp only [List.mem_cons, List.not_mem_nil, or_false, not_or] at hkey
      simp [hkey]

theorem SameRequest.payload {i j : Json} (h : SameRequest i j) :
    SameRequest (authorizationPayload i) (authorizationPayload j) := by
  obtain ⟨⟨⟨f, rfl⟩, g, rfl⟩, hget⟩ := h
  change ∀ key, key ≠ "policy" → f.lookup key = g.lookup key at hget
  obtain ⟨f', hf, fcapability, fclass, fsummary, frest⟩ := authorizationPayload_object f
  obtain ⟨g', hg, gcapability, gclass, gsummary, grest⟩ := authorizationPayload_object g
  rw [hf, hg]
  refine ⟨⟨⟨f', rfl⟩, g', rfl⟩, fun key hkey => ?_⟩
  change f'.lookup key = g'.lookup key
  by_cases hput : key ∈ ["capability", "action_class", "target_summary"]
  · simp only [List.mem_cons, List.not_mem_nil, or_false] at hput
    rcases hput with rfl | rfl | rfl
    · rw [fcapability, gcapability, hget "capability" (by decide)]
    · rw [fclass, gclass, hget "action_class" (by decide)]
    · rw [fsummary, gsummary, hget "target_summary" (by decide), hget "command" (by decide)]
  · rw [frest key hput, grest key hput, hget key hkey]

section SameRequest
variable {i j : Json} (h : SameRequest i j)
include h

theorem SameRequest.stringField {key : String} (hkey : key ≠ "policy") :
    stringField i key = stringField j key := by
  rw [Kernel.stringField, Kernel.stringField, h.get key hkey]

theorem SameRequest.boolishOf {truthy : List String} {default : Bool} {key : String} (hkey : key ≠ "policy") :
    boolishOf truthy default i key = boolishOf truthy default j key := by
  rw [Kernel.boolishOf, Kernel.boolishOf, h.get key hkey]

theorem SameRequest.safeModeLayer : safeModeLayer i = safeModeLayer j := by
  have hmatch : controllingMatch i = controllingMatch j := by
    rw [controllingMatch, controllingMatch, h.get "matched_chain" (by decide)]
  have hhealth : healthState i = healthState j := by
    rw [healthState, healthState, h.stringField (by decide), h.get "computer_profile" (by decide)]
  have hflag (key : String) (hkey : key ≠ "policy") : safeModeBoolish i key = safeModeBoolish j key :=
    h.boolishOf hkey
  have hsafe : safeModeDecisionCommand i = safeModeDecisionCommand j := by
    rw [safeModeDecisionCommand, safeModeDecisionCommand, hmatch, hhealth, stringFieldOr, stringFieldOr,
      h.stringField (show "capability" ≠ "policy" by decide), h.stringField (show "capability_id" ≠ "policy" by decide),
      h.stringField (show "incident_mode" ≠ "policy" by decide), hflag "safe_mode_enabled" (by decide),
      hflag "forced_safe_mode" (by decide), hflag "maintenance_mode" (by decide),
      hflag "kill_switch_enabled" (by decide)]
  rw [Authorization.safeModeLayer, Authorization.safeModeLayer, hsafe]

theorem SameRequest.contextLayer : contextLayer i = contextLayer j := by
  have hcontext : evaluatePolicyContext i = evaluatePolicyContext j := by
    unfold evaluatePolicyContext
    rw [h.get "payload" (by decide)]
  rw [Authorization.contextLayer, Authorization.contextLayer, hcontext]

theorem SameRequest.planLayer : planLayer i = planLayer j := by
  have hcommand : commandText i = commandText j := by
    rw [commandText, commandText, stringFieldOr, stringFieldOr, stringVecField, stringVecField,
      h.stringField (show "command" ≠ "policy" by decide), h.stringField (show "shell_command" ≠ "policy" by decide),
      h.get "argv" (by decide)]
  have hflag (key : String) (default : Bool) (hkey : key ≠ "policy") :
      executionBoolish i key default = executionBoolish j key default :=
    h.boolishOf hkey
  have hplan : executionPlanCommand i = executionPlanCommand j := by
    rw [executionPlanCommand, executionPlanCommand, hcommand, stringFieldOr, stringFieldOr, boundedU64, boundedU64,
      boundedU64, boundedU64, h.stringField (show "sandbox_type" ≠ "policy" by decide),
      h.stringField (show "working_dir" ≠ "policy" by decide), h.stringField (show "cwd" ≠ "policy" by decide),
      h.stringField (show "memory" ≠ "policy" by decide), hflag "sandbox_required" true (by decide),
      hflag "network_requested" false (by decide), hflag "requires_network" false (by decide),
      h.get "max_runtime_seconds" (by decide), h.get "cpu_shares" (by decide)]
  rw [Authorization.planLayer, Authorization.planLayer, hplan]

theorem SameRequest.policyLayer (p : Policy) (c : Capability) : policyLayer p c i = policyLayer p c j := by
  rw [Authorization.policyLayer, Authorization.policyLayer,
    h.stringField (show "requested_domain" ≠ "policy" by decide),
    h.stringField (show "requested_path" ≠ "policy" by decide)]

theorem SameRequest.actionClass : actionClass i = actionClass j := by
  rw [Authorization.actionClass, Authorization.actionClass, h.stringField (by decide)]

/-- The text that the risk reads is that of the payload, so that the policy is no part of it. -/
theorem SameRequest.payloadText (hpayload : (i.get "payload").isSome = true) : payloadText i = payloadText j := by
  obtain ⟨payload, hsome⟩ := Option.isSome_iff_exists.mp hpayload
  have hj : j.get "payload" = some payload := by
    rw [← h.get "payload" (by decide), hsome]
  rw [Authorization.payloadText, Authorization.payloadText, hsome, hj]
  rfl

theorem SameRequest.states : currentKillState i = currentKillState j ∧
    computerProfileHealthState i = computerProfileHealthState j := by
  rw [currentKillState, currentKillState, computerProfileHealthState, computerProfileHealthState,
    h.stringField (show "current_kill_state" ≠ "policy" by decide), h.get "computer_profile" (by decide)]
  exact ⟨rfl, rfl⟩

end SameRequest

/-! ### Tighter policies -/

section Tighter
variable {i j : Json} {p q : Policy} {c : Capability}

end Tighter

end Empyralis.Kernel.Authorization
