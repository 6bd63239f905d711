import Empyralis.Lib.Recency
import Empyralis.Lib.Run
import Empyralis.Server.GatewayFrames

/-! How the server tells a request of a gateway that it has had before.

    A connection has the ids that it has seen in a set and the responses in an ordered dictionary. The set is iterated in
    an order that nothing fixes, so the order is part of each step. The frames here are requests, which have no sequence
    number, and have passed the checks that come before; what is done with a frame is only the response it comes to. -/

namespace Empyralis.Server.InboundFrames
open Gateway.Codec (JsString Json js)
open GatewayFrames (token token_eq_strip strip strip_strip pySpace idText)
open Recency (recent push setItem moveToEnd)

variable {ρ : Type}

/-- What a `_LiveGatewayConnection` keeps of the frames it was sent. -/
structure Connection (ρ : Type) where
  seenInboundFrameIds : Finset JsString
  frameResponseCache : List (JsString × ρ)

variable (repr : Json → JsString)

/-- `remember_inbound_frame_id`; `order` is the list of the set. -/
def rememberInboundFrameId (c : Connection ρ) (frameId : Option Json) (order : List JsString) : Bool × Connection ρ :=
  let normalized := token repr [frameId]
  if normalized = [] then (true, c)
  else if normalized ∈ c.seenInboundFrameIds then (false, c)
  else
    let seen := if 4096 ≤ c.seenInboundFrameIds.card then (order.drop 2048).toFinset else c.seenInboundFrameIds
    (true, { c with seenInboundFrameIds := insert normalized seen })

/-- `cache_frame_response` -/
def cacheFrameResponse (c : Connection ρ) (frameId : JsString) (response : ρ) : Connection ρ :=
  let cache := moveToEnd frameId (setItem frameId response c.frameResponseCache)
  { c with frameResponseCache := if 2048 < cache.length then cache.tail else cache }

/-- `get_cached_frame_response` -/
def getCachedFrameResponse (c : Connection ρ) (frameId : JsString) : Option ρ := c.frameResponseCache.lookup frameId

/-- What a frame that is processed comes to: the loop goes on after its response, or it ends, with a last response or
    without one. -/
inductive Handled (ρ : Type) where
  | answered (response : ρ)
  | ended (response : Option ρ)

def Handled.response : Handled ρ → Option ρ
  | .answered response => some response
  | .ended response => response

def Handled.isEnd : Handled ρ → Bool
  | .answered _ => false
  | .ended _ => true

/-- A frame, the order in which the set lists its ids, and what the handler makes of it. -/
structure Received (ρ : Type) where
  frame : Json
  order : List JsString
  handled : Handled ρ

/-- What is done with a frame: it is processed, or answered by a response that was sent before or by the error
    `duplicate_frame_id`. -/
inductive Answer (ρ : Type) where
  | processed
  | replayed (response : ρ)
  | duplicateFrameId (frameId : JsString)
  deriving DecidableEq

/-- The loop of `handle_gateway_websocket`. The ids that were accepted and the responses that were cached are also kept
    on record, the newest one first. -/
structure State (ρ : Type) where
  connection : Connection ρ
  isEnd : Bool
  accepted : List JsString
  cached : List (JsString × ρ)

/-- The loop begins when the response to the frame with which the gateway has connected is cached. -/
def connected (frameId : JsString) (response : ρ) : State ρ :=
  ⟨cacheFrameResponse ⟨∅, []⟩ frameId response, false, [], [(frameId, response)]⟩

/-- A frame that was seen is answered from the cache, if it is there. -/
def answer (s : State ρ) (r : Received ρ) : Answer ρ :=
  if (rememberInboundFrameId repr s.connection (r.frame.get "id") r.order).1 then .processed
  else match getCachedFrameResponse s.connection (idText repr r.frame) with
    | some response => .replayed response
    | none => .duplicateFrameId (idText repr r.frame)

/-- Only a frame with a response is cached. -/
def cacheResponse (frameId : JsString) : Option ρ → State ρ → State ρ
  | none, s => s
  | some response, s =>
    { s with connection := cacheFrameResponse s.connection frameId response, cached := (frameId, response) :: s.cached }

/-- The frame is remembered and processed, and its response is cached. -/
def process (s : State ρ) (r : Received ρ) : State ρ :=
  let id := idText repr r.frame
  cacheResponse id r.handled.response
    { s with
      connection := (rememberInboundFrameId repr s.connection (r.frame.get "id") r.order).2
      isEnd := r.handled.isEnd
      accepted := if id = [] then s.accepted else id :: s.accepted }

/-- A list of all the ids in the set, which is what the set is when it is iterated. -/
def Lists (order : List JsString) (ids : Finset JsString) : Prop := order.Nodup ∧ order.toFinset = ids

instance (order : List JsString) (ids : Finset JsString) : Decidable (Lists order ids) := instDecidableAnd

def step (s : State ρ) (r : Received ρ) : Option (State ρ) :=
  if s.isEnd ∨ ¬ Lists r.order s.connection.seenInboundFrameIds then none
  else match answer repr s r with
    | .processed => some (process repr s r)
    | _ => some s

/-- The last distinct ids that were accepted. -/
def lastAccepted (n : Nat) (s : State ρ) : List JsString := (recent id s.accepted).take n

/-- How many other ids were cached since an id was. -/
def cachedSince (s : State ρ) (frameId : JsString) : Nat :=
  ((s.cached.takeWhile fun entry => entry.1 ≠ frameId).map Prod.fst).toFinset.card

/-- What the next frame meets: one of the last 2048 ids is not processed again, and a frame that is not processed is
    answered by the response to its id when at most 2047 other ids were cached since. -/
structure Deduplicates (s : State ρ) : Prop where
  once : ∀ r t, step repr s r = some t → idText repr r.frame ∈ lastAccepted 2048 s → answer repr s r ≠ .processed
  replayed : ∀ r t response, step repr s r = some t → answer repr s r ≠ .processed →
    s.cached.lookup (idText repr r.frame) = some response → cachedSince s (idText repr r.frame) ≤ 2047 →
      answer repr s r = .replayed response

/-- The set of ids is full when a new one comes, and the loop goes on after it. -/
structure Trims (s : State ρ) (r : Received ρ) : Prop where
  isOpen : s.isEnd = false
  lists : Lists r.order s.connection.seenInboundFrameIds
  goesOn : r.handled.isEnd = false
  nonblank : idText repr r.frame ≠ []
  new : idText repr r.frame ∉ s.connection.seenInboundFrameIds
  full : 4096 ≤ s.connection.seenInboundFrameIds.card

/-- None of the 2048 ids that are dropped from a full set is one of the last 2047 that were accepted. -/
def KeepsRecent (s : State ρ) (r : Received ρ) : Prop :=
  Trims repr s r → ∀ id ∈ lastAccepted 2047 s, id ∉ r.order.take 2048

variable {repr} {s t : State ρ} {r : Received ρ}

/-! ### One frame -/

theorem answer_processed_iff : answer repr s r = .processed ↔
    idText repr r.frame = [] ∨ idText repr r.frame ∉ s.connection.seenInboundFrameIds := by
  have hremember : (rememberInboundFrameId repr s.connection (r.frame.get "id") r.order).1 = true ↔
      idText repr r.frame = [] ∨ idText repr r.frame ∉ s.connection.seenInboundFrameIds := by
    rw [rememberInboundFrameId, ← idText]
    split_ifs <;> simp_all
  rw [answer, ← hremember]
  split
  · simp_all
  · refine iff_of_false ?_ ‹_›
    split <;> simp

/-- A frame is processed, or changes nothing. -/
theorem step_cases (h : step repr s r = some t) : s.isEnd = false ∧ Lists r.order s.connection.seenInboundFrameIds ∧
    (answer repr s r = .processed ∧ t = process repr s r ∨ answer repr s r ≠ .processed ∧ t = s) := by
  rw [step] at h
  split at h
  · cases h
  · rename_i hready
    rw [not_or, not_not, Bool.not_eq_true] at hready
    refine ⟨hready.1, hready.2, ?_⟩
    cases hanswer : answer repr s r with
    | processed =>
      rw [hanswer, Option.some.injEq] at h
      exact Or.inl ⟨rfl, h.symm⟩
    | replayed response =>
      rw [hanswer, Option.some.injEq] at h
      exact Or.inr ⟨by simp, h.symm⟩
    | duplicateFrameId frameId =>
      rw [hanswer, Option.some.injEq] at h
      exact Or.inr ⟨by simp, h.symm⟩

theorem step_isSome (hopen : s.isEnd = false) (hlists : Lists r.order s.connection.seenInboundFrameIds) :
    ∃ t, step repr s r = some t := by
  rw [step, if_neg (by simp [hopen, hlists])]
  split
  · exact ⟨_, rfl⟩
  · exact ⟨_, rfl⟩

theorem seen_process : (process repr s r).connection.seenInboundFrameIds =
    (rememberInboundFrameId repr s.connection (r.frame.get "id") r.order).2.seenInboundFrameIds := by
  rw [process]
  cases r.handled.response <;> rfl

theorem seen_process_blank (h : idText repr r.frame = []) :
    (process repr s r).connection.seenInboundFrameIds = s.connection.seenInboundFrameIds := by
  rw [seen_process, rememberInboundFrameId, ← idText, if_pos h]

theorem seen_process_new (hne : idText repr r.frame ≠ [])
    (hnew : idText repr r.frame ∉ s.connection.seenInboundFrameIds) :
    (process repr s r).connection.seenInboundFrameIds = insert (idText repr r.frame)
      (if 4096 ≤ s.connection.seenInboundFrameIds.card then (r.order.drop 2048).toFinset
        else s.connection.seenInboundFrameIds) := by
  rw [seen_process, rememberInboundFrameId, ← idText, if_neg hne, if_neg hnew]

theorem cache_remember (frameId : Option Json) (order : List JsString) (c : Connection ρ) :
    (rememberInboundFrameId repr c frameId order).2.frameResponseCache = c.frameResponseCache := by
  rw [rememberInboundFrameId]
  split_ifs <;> rfl

theorem isEnd_process : (process repr s r).isEnd = r.handled.isEnd := by
  rw [process]
  cases r.handled.response <;> rfl

theorem accepted_process : (process repr s r).accepted =
    if idText repr r.frame = [] then s.accepted else idText repr r.frame :: s.accepted := by
  rw [process]
  cases r.handled.response <;> rfl

/-! ### The cache -/

/-- The cache has the responses of the 2048 ids for which one was cached last. -/
def Cached (c : Connection ρ) (cached : List (JsString × ρ)) : Prop :=
  c.frameResponseCache.reverse = (recent Prod.fst cached).take 2048

theorem Cached.nodup {c : Connection ρ} {cached : List (JsString × ρ)} (h : Cached c cached) :
    (c.frameResponseCache.map Prod.fst).Nodup := by
  have hnodup : (((recent Prod.fst cached).take 2048).map Prod.fst).Nodup :=
    (Recency.nodup_recent cached).sublist ((List.take_sublist 2048 _).map Prod.fst)
  rw [← h, List.map_reverse, List.nodup_reverse] at hnodup
  exact hnodup

theorem cached_cacheFrameResponse {c : Connection ρ} {cached : List (JsString × ρ)} (h : Cached c cached)
    (frameId : JsString) (response : ρ) : Cached (cacheFrameResponse c frameId response)
    ((frameId, response) :: cached) := by
  have hlength : c.frameResponseCache.length ≤ 2048 := by
    rw [← List.length_reverse, h]
    exact List.length_take_le 2048 _
  rw [Cached, cacheFrameResponse, ← Recency.push_recent, ← h]
  exact Recency.reverse_write h.nodup hlength

theorem cached_process (h : Cached s.connection s.cached) :
    Cached (process repr s r).connection (process repr s r).cached := by
  have hremember : Cached (rememberInboundFrameId repr s.connection (r.frame.get "id") r.order).2 s.cached := by
    rw [Cached, cache_remember]
    exact h
  rw [process]
  cases r.handled.response with
  | none => exact hremember
  | some response => exact cached_cacheFrameResponse hremember _ response

/-- A response is found as long as it is one of the 2048 last ones. -/
theorem getCachedFrameResponse_of (h : Cached s.connection s.cached) {frameId : JsString} {response : ρ}
    (hcached : s.cached.lookup frameId = some response) (hfew : cachedSince s frameId ≤ 2047) :
    getCachedFrameResponse s.connection frameId = some response := by
  obtain ⟨newer, older, hsplit, hnewer⟩ := List.lookup_eq_some_iff.mp hcached
  have hkeys : frameId ∉ newer.map Prod.fst := by
    rw [List.mem_map]
    rintro ⟨entry, hentry, rfl⟩
    simpa using hnewer entry hentry
  have hsince : (newer.map Prod.fst).toFinset.card ≤ 2047 := by
    have htake : s.cached.takeWhile (fun entry => entry.1 ≠ frameId) = newer := by
      rw [hsplit, List.takeWhile_append_of_pos, List.takeWhile_cons_of_neg (by simp), List.append_nil]
      intro entry hentry
      exact decide_eq_true fun hsame => hkeys (List.mem_map.mpr ⟨entry, hentry, hsame⟩)
    rw [cachedSince, htake] at hfew
    exact hfew
  have hmem : (frameId, response) ∈ s.connection.frameResponseCache := by
    rw [← List.mem_reverse, h, hsplit]
    exact Recency.mem_take_recent hkeys (Nat.lt_succ_of_le hsince)
  obtain ⟨before, after, hcache⟩ := List.append_of_mem hmem
  have hnodup := h.nodup
  rw [hcache, List.map_append, List.map_cons, List.nodup_append] at hnodup
  rw [getCachedFrameResponse, List.lookup_eq_some_iff]
  refine ⟨before, after, hcache, fun entry hentry => ?_⟩
  have hne := hnodup.2.2 entry.1 (List.mem_map_of_mem hentry) frameId List.mem_cons_self
  simpa using hne.symm

/-! ### The set of ids -/

/-- What a loop keeps: the cache, and, while it goes on, the last 2048 ids in the set. -/
structure Inv (s : State ρ) : Prop where
  cache : Cached s.connection s.cached
  ids : ∀ id ∈ s.accepted, id ≠ [] ∧ strip id = id
  seen : s.isEnd = false → ∀ id ∈ lastAccepted 2048 s, id ∈ s.connection.seenInboundFrameIds

theorem lastAccepted_mono {m n : Nat} (hle : m ≤ n) {id : JsString} (h : id ∈ lastAccepted m s) :
    id ∈ lastAccepted n s :=
  List.take_subset_take_left _ hle h

/-- The new id comes before the 2047 last ones. -/
theorem lastAccepted_process (hne : idText repr r.frame ≠ []) (hnew : idText repr r.frame ∉ lastAccepted 2048 s) :
    lastAccepted 2048 (process repr s r) = idText repr r.frame :: lastAccepted 2047 s := by
  rw [lastAccepted, accepted_process, if_neg hne, ← Recency.push_recent, push, List.take_succ_cons,
    List.filter_eq_self.mpr,
    List.take_take]
  · rfl
  · intro other hother
    refine decide_eq_true fun hsame => hnew ?_
    rw [show idText repr r.frame = other from hsame.symm]
    exact hother

/-- One step keeps the recent ids in the set, if none of them is dropped. -/
theorem inv_step (hi : Inv s) (hc : KeepsRecent repr s r) (hst : step repr s r = some t) : Inv t := by
  obtain ⟨hopen, hlists, ⟨hanswer, rfl⟩ | ⟨_, rfl⟩⟩ := step_cases hst
  · refine ⟨cached_process hi.cache, ?_, ?_⟩
    · rw [accepted_process]
      intro id hid
      split at hid
      · exact hi.ids id hid
      · rename_i hne
        rcases List.mem_cons.mp hid with rfl | hid
        · obtain ⟨text, htext⟩ : ∃ text, token repr [r.frame.get "id"] = strip text := token_eq_strip _
          refine ⟨hne, ?_⟩
          rw [idText, htext, strip_strip]
        · exact hi.ids id hid
    · intro hgoes id hid
      rw [isEnd_process] at hgoes
      by_cases hne : idText repr r.frame = []
      · rw [lastAccepted, accepted_process, if_pos hne] at hid
        rw [seen_process_blank hne]
        exact hi.seen hopen id hid
      · have hnew : idText repr r.frame ∉ s.connection.seenInboundFrameIds :=
          (answer_processed_iff.mp hanswer).resolve_left hne
        rw [lastAccepted_process hne fun hmem => hnew (hi.seen hopen _ hmem)] at hid
        rw [seen_process_new hne hnew, Finset.mem_insert]
        rcases List.mem_cons.mp hid with rfl | hid
        · exact Or.inl rfl
        · refine Or.inr ?_
          have hseen := hi.seen hopen id (lastAccepted_mono (by decide) hid)
          split
          · rename_i hfull
            have hkept : id ∉ r.order.take 2048 := hc ⟨hopen, hlists, hgoes, hne, hnew, hfull⟩ id hid
            rw [← hlists.2, List.mem_toFinset, ← List.take_append_drop 2048 r.order, List.mem_append] at hseen
            exact List.mem_toFinset.mpr (hseen.resolve_left hkept)
          · exact hseen
  · exact hi

theorem inv_connected (frameId : JsString) (response : ρ) : Inv (connected frameId response) := by
  refine ⟨cached_cacheFrameResponse (by rfl) frameId response, ?_, ?_⟩
  · intro id hid
    cases hid
  · intro _ id hid
    cases hid

theorem Inv.deduplicates (hi : Inv s) : Deduplicates repr s := by
  constructor
  · intro r t hst hrecent hanswer
    have hseen := hi.seen (step_cases hst).1 _ hrecent
    rcases answer_processed_iff.mp hanswer with hblank | hnew
    · exact (hi.ids _ (Recency.mem_of_mem_recent (List.mem_of_mem_take hrecent))).1 hblank
    · exact hnew hseen
  · intro r t response _ hanswer hcached hfew
    have hfound := getCachedFrameResponse_of hi.cache hcached hfew
    rw [answer] at hanswer ⊢
    split at hanswer
    · exact absurd rfl hanswer
    · rename_i hold
      rw [if_neg hold, hfound]

/-- A request that has an id and nothing else. -/
def requestOf (id : JsString) : Json := .object [(js "id", .string id)]

theorem idText_requestOf {id : JsString} (hne : id ≠ []) (hstrip : strip id = id) :
    idText repr (requestOf id) = id := by
  have hget : (requestOf id).get "id" = some (.string id) := by simp [requestOf, Json.get]
  rw [idText, hget, token, List.findSome?_cons, show (some (Json.string id)).filter GatewayFrames.truthy = _ from
    Option.filter_some_pos (by simpa [GatewayFrames.truthy] using hne)]
  exact hstrip

theorem keepsRecent_of_deduplicates (hi : Inv s) (h : ∀ t, step repr s r = some t → Deduplicates repr t) :
    KeepsRecent repr s r := by
  rintro ⟨hopen, hlists, hgoes, hne, hnew, hfull⟩ id hid hdropped
  have hanswer : answer repr s r = .processed := answer_processed_iff.mpr (Or.inr hnew)
  have hst : step repr s r = some (process repr s r) := by
    obtain ⟨t, ht⟩ : ∃ t, step repr s r = some t := step_isSome hopen hlists
    rcases step_cases ht with ⟨_, _, ⟨_, rfl⟩ | ⟨hother, _⟩⟩
    · exact ht
    · exact absurd hanswer hother
  -- The id comes once more.
  let next : Received ρ := ⟨requestOf id, (process repr s r).connection.seenInboundFrameIds.toList, .ended none⟩
  obtain ⟨u, hu⟩ : ∃ u, step repr (process repr s r) next = some u :=
    step_isSome (isEnd_process.trans hgoes) ⟨Finset.nodup_toList _, Finset.toList_toFinset _⟩
  have hid' := hi.ids id (Recency.mem_of_mem_recent (List.mem_of_mem_take hid))
  have htext : idText repr next.frame = id := idText_requestOf hid'.1 hid'.2
  have hrecent : idText repr next.frame ∈ lastAccepted 2048 (process repr s r) := by
    rw [htext, lastAccepted_process hne fun hmem => hnew (hi.seen hopen _ hmem)]
    exact List.mem_cons_of_mem _ hid
  have hseen : id ∈ (process repr s r).connection.seenInboundFrameIds := by
    by_contra habsent
    rw [← htext] at habsent
    exact (h _ hst).once next u hu hrecent (answer_processed_iff.mpr (Or.inr habsent))
  rw [seen_process_new hne hnew, if_pos hfull, Finset.mem_insert] at hseen
  rcases hseen with rfl | hkept
  · exact hnew (hi.seen hopen _ (lastAccepted_mono (by decide) hid))
  · exact List.disjoint_take_drop hlists.1 (le_refl 2048) hdropped (List.mem_toFinset.mp hkept)

/-- Each frame of a connection is told from those before it just when no trim of the set drops one of the last 2047 ids. -/
theorem frames_deduplicated (frameId : JsString) (response : ρ) (frames : List (Received ρ)) :
    (∀ first t, first <+: frames → Run.run (step repr) (connected frameId response) first = some t →
        Deduplicates repr t) ↔
      Run.Meets (step repr) (KeepsRecent repr) (connected frameId response) frames :=
  Run.all_iff_meets (L := fun _ => True) (fun _ hi => hi.deduplicates) (fun _ _ _ hi _ hc hst => inv_step hi hc hst)
    (fun _ _ hi _ h => keepsRecent_of_deduplicates hi h) (inv_connected frameId response) fun _ _ => trivial

/-! ### A set that is iterated from its newest id on -/

def fresh (n : Nat) : JsString := [UInt16.ofNat (0x4E00 + n)]

/-- The ids before one, the newest first. -/
def earlier (n : Nat) : List JsString := ((List.range n).map fresh).reverse

def received (n : Nat) : Received Nat := ⟨requestOf (fresh n), earlier n, .answered n⟩

theorem strip_singleton {unit : UInt16} (h : pySpace unit = false) : strip [unit] = [unit] := by
  simp [strip, h, List.rdropWhile]

theorem strip_fresh {n : Nat} (hn : n ≤ 4096) : strip (fresh n) = fresh n := by
  refine strip_singleton ?_
  have htext : (UInt16.ofNat (0x4E00 + n)).toNat = 0x4E00 + n := 
    UInt16.toNat_ofNat_of_lt' (show 0x4E00 + n < 65536 by omega)
  rw [← Bool.not_eq_true]
  simp only [pySpace, Bool.or_eq_true, Bool.and_eq_true, decide_eq_true_eq, List.contains_iff_mem, List.mem_cons,
    UInt16.le_iff_toNat_le, ← UInt16.toNat_inj, htext, UInt16.toNat_ofNat, Nat.reduceMod, Nat.reducePow,
    List.not_mem_nil, or_false]
  omega

theorem fresh_injective {m n : Nat} (hm : m ≤ 4096) (hn : n ≤ 4096) (h : fresh m = fresh n) : m = n := by
  rw [fresh, fresh, List.cons.injEq, ← UInt16.toNat_inj, UInt16.toNat_ofNat', UInt16.toNat_ofNat'] at h
  omega

theorem idText_received {n : Nat} (hn : n ≤ 4096) : idText repr (received n).frame = fresh n :=
  idText_requestOf (by simp [fresh]) (strip_fresh hn)

theorem earlier_succ (n : Nat) : earlier (n + 1) = fresh n :: earlier n := by
  rw [earlier, List.range_succ, List.map_append, List.reverse_append]
  rfl

theorem nodup_earlier {n : Nat} (hn : n ≤ 4097) : (earlier n).Nodup := by
  rw [earlier, List.nodup_reverse]
  refine List.Nodup.map_on (fun a ha b hb hab => ?_) List.nodup_range
  rw [List.mem_range] at ha hb
  exact fresh_injective (by omega) (by omega) hab

theorem fresh_not_mem_earlier {n : Nat} (hn : n ≤ 4096) : fresh n ∉ earlier n := by
  have hnodup := nodup_earlier (Nat.succ_le_succ hn)
  rw [earlier_succ] at hnodup
  exact (List.nodup_cons.mp hnodup).1

/-- What is left after frames that all have new ids. -/
structure Filled (n : Nat) (s : State Nat) : Prop where
  isOpen : s.isEnd = false
  accepted : s.accepted = earlier n
  seen : s.connection.seenInboundFrameIds = (earlier n).toFinset

theorem step_received {s : State Nat} {n : Nat} (hn : n ≤ 4096) (h : Filled n s) :
    step repr s (received n) = some (process repr s (received n)) := by
  have hanswer : answer repr s (received n) = .processed := by
    refine answer_processed_iff.mpr (Or.inr ?_)
    rw [idText_received hn, h.seen, List.mem_toFinset]
    exact fresh_not_mem_earlier hn
  obtain ⟨t, ht⟩ : ∃ t, step repr s (received n) = some t :=
    step_isSome h.isOpen ⟨nodup_earlier (Nat.le_succ_of_le hn), h.seen.symm⟩
  rcases step_cases ht with ⟨_, _, ⟨_, rfl⟩ | ⟨hother, _⟩⟩
  · exact ht
  · exact absurd hanswer hother

theorem filled_process {s : State Nat} {n : Nat} (hn : n < 4096) (h : Filled n s) :
    Filled (n + 1) (process repr s (received n)) := by
  have hnonblank : idText repr (received n).frame ≠ [] := by
    rw [idText_received (by omega)]
    exact List.cons_ne_nil _ _
  have hnew : idText repr (received n).frame ∉ s.connection.seenInboundFrameIds := by
    rw [idText_received (by omega), h.seen, List.mem_toFinset]
    exact fresh_not_mem_earlier (by omega)
  refine ⟨isEnd_process, ?_, ?_⟩
  · rw [accepted_process, if_neg hnonblank, idText_received (by omega), h.accepted, earlier_succ]
  · have hcard : s.connection.seenInboundFrameIds.card = n := by
      rw [h.seen, List.toFinset_card_of_nodup (nodup_earlier (by omega)), earlier, List.length_reverse, List.length_map,
        List.length_range]
    rw [seen_process_new hnonblank hnew, if_neg (by omega), idText_received (by omega), h.seen, earlier_succ,
      List.toFinset_cons]

theorem run_received : ∀ n ≤ 4096, ∃ t, Run.run (step repr) (connected (js "connect") 0)
    ((List.range n).map received) = some t ∧
    Filled n t
  | 0, _ => ⟨_, rfl, rfl, rfl, rfl⟩
  | n + 1, hn => by
    obtain ⟨t, hrun, hfilled⟩ := run_received n (by omega)
    refine ⟨process repr t (received n), ?_, filled_process (by omega) hfilled⟩
    rw [List.range_succ, List.map_append, Run.run_append, hrun]
    simp [step_received (by omega) hfilled]

/-- One frame more than the set takes, each with an id of its own. -/
def overflow : List (Received Nat) := (List.range 4097).map received

/-- The set is full after 4096 frames, and the next one drops the id of the frame before it. -/
theorem dropped_after (repr : Json → JsString) {s : State Nat} (h : Filled 4096 s) :
    (process repr s (received 4096)).isEnd = false ∧
      fresh 4095 ∈ lastAccepted 2048 (process repr s (received 4096)) ∧
        fresh 4095 ∉ (process repr s (received 4096)).connection.seenInboundFrameIds := by
  have hnonblank : idText repr (received 4096).frame ≠ [] := by
    rw [idText_received (le_refl 4096)]
    exact List.cons_ne_nil _ _
  have hnew : fresh 4096 ∉ s.connection.seenInboundFrameIds := by
    rw [h.seen, List.mem_toFinset]
    exact fresh_not_mem_earlier (le_refl 4096)
  have habsent : fresh 4096 ∉ lastAccepted 2048 s := by
    intro hmem
    have hmem' := Recency.mem_of_mem_recent (List.mem_of_mem_take hmem)
    rw [h.accepted] at hmem'
    exact fresh_not_mem_earlier (le_refl 4096) hmem'
  have hcard : 4096 ≤ s.connection.seenInboundFrameIds.card := by
    rw [h.seen, List.toFinset_card_of_nodup (nodup_earlier (by omega)), earlier, List.length_reverse, List.length_map,
      List.length_range]
  have htext : idText repr (received 4096).frame = fresh 4096 := idText_received (le_refl 4096)
  refine ⟨isEnd_process, ?_, ?_⟩
  · rw [lastAccepted_process hnonblank (by rwa [htext]), lastAccepted, h.accepted, earlier_succ 4095, recent,
      List.take_succ_cons]
    exact List.mem_cons_of_mem _ List.mem_cons_self
  · rw [seen_process_new hnonblank (by rwa [htext]), if_pos hcard, htext, Finset.mem_insert, List.mem_toFinset]
    rintro (hsame | hkept)
    · exact absurd (fresh_injective (by omega) (by omega) hsame) (by omega)
    · rw [received, earlier_succ 4095, List.drop_succ_cons] at hkept
      exact fresh_not_mem_earlier (by omega) (List.mem_of_mem_drop hkept)

/-- The frame before the last one is processed a second time. -/
theorem frame_processed_twice : ∃ t, Run.run (step fun _ => []) (connected (js "connect") 0) overflow = some t ∧
    fresh 4095 ∈ lastAccepted 2048 t ∧ ∃ r u, idText (fun _ => []) r.frame = fresh 4095 ∧
      step (fun _ => []) t r = some u ∧ answer (fun _ => []) t r = .processed := by
  obtain ⟨s, hrun, hs⟩ : ∃ s, Run.run (step fun _ => []) (connected (js "connect") 0) ((List.range 4096).map received) =
      some s ∧ Filled 4096 s := run_received 4096 (le_refl 4096)
  obtain ⟨hopen, hrecent, hdropped⟩ := dropped_after (fun _ => []) hs
  refine ⟨process (fun _ => []) s (received 4096), ?_, hrecent, ?_⟩
  · rw [overflow, List.range_succ, List.map_append, Run.run_append, hrun]
    simp [step_received (le_refl 4096) hs]
  · let again : Received Nat :=
      ⟨requestOf (fresh 4095), (process (fun _ => []) s (received 4096)).connection.seenInboundFrameIds.toList,
        .answered 0⟩
    obtain ⟨u, hu⟩ : ∃ u, step (fun _ => []) (process (fun _ => []) s (received 4096)) again = some u :=
      step_isSome hopen ⟨Finset.nodup_toList _, Finset.toList_toFinset _⟩
    have htext : idText (fun _ => []) again.frame = fresh 4095 :=
      idText_requestOf (List.cons_ne_nil _ _) (strip_fresh (by omega))
    refine ⟨again, u, htext, hu, answer_processed_iff.mpr (Or.inr ?_)⟩
    rw [htext]
    exact hdropped

end Empyralis.Server.InboundFrames
