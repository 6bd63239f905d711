import Empyralis.Lib.Chain
import Empyralis.Lib.Run
import Empyralis.Lib.SerializedFile
import Empyralis.Lib.Text
import Mathlib.Algebra.GroupWithZero.Nat

/-! `PendingResponseQueue` and the calls of `GatewayWsClient` that use it.

    A process is a `sendResponse` or the flush after a reconnect. Both hand frames to the socket one
    by one and take each from the list once it is out: a `sendResponse` its own frame, after it has
    been put on the list, a flush the frames that it found there. The list is read at once, and its
    writes join the chain of its file; a write has landed when the file has taken it over. -/

namespace Empyralis.Gateway.PendingResponses

/-! ### Frames -/

/-- A JSON value; a `scalar` is a number, a boolean or `null`, by its text. -/
inductive Value where
  | scalar (text : String)
  | string (text : String)
  | array (items : List Value)
  | object (fields : List (String × Value))

abbrev Fields := List (String × Value)

/-- The value under a key. -/
def get (fields : Fields) (key : String) : Option Value :=
  (fields.find? (·.1 = key)).map (·.2)

/-- An assignment to a property, which stays where it is if there is one. -/
def put (fields : Fields) (key : String) (value : Value) : Fields :=
  if fields.any (·.1 = key) then fields.map fun f => if f.1 = key then (key, value) else f
  else fields ++ [(key, value)]

/-- The fields without a key. -/
def drop (fields : Fields) (key : String) : Fields := fields.filter (·.1 ≠ key)

/-- What an object spread takes over, where `typeof value === "object"`. -/
def spread : Value → Option Fields
  | .object fields => some fields
  | .array items => some (items.mapIdx fun i item => (toString i, item))
  | .scalar _ | .string _ => none

/-- `length` of a JavaScript string. -/
def utf16Length (text : String) : Nat :=
  (text.toList.map fun c => if c.toNat < 0x10000 then 1 else 2).sum

/-- An image without its data, but with an estimate of its size. -/
def compactImage (item : Fields) : Fields :=
  let estimated :=
    match get item "data_base64" with
    | some (.string data) =>
      if data = "" then item
      else put (put item "data_truncated" (.scalar "true")) "byte_size_estimate"
        (.scalar (toString (utf16Length data * 3 / 4)))
    | _ => item
  drop (drop (drop estimated "data_base64") "base64") "data"

/-- `compactGatewayResponsePayload` -/
def compactGatewayResponsePayload (payload : Fields) : Fields :=
  match get payload "capability_id" with
  | some (.string "screenshot.capture") =>
    let result := ((get payload "result").bind spread).getD []
    let images :=
      match get result "images" with
      | some (.array items) => items
      | _ => []
    put payload "result" (.object (put result "images"
      (.array ((images.filterMap spread).map fun item => .object (compactImage item)))))
  | _ => payload

/-- `GatewayResponseEnvelope`, less its constant fields. -/
structure Frame where
  id : String
  ok : Bool
  ts : String
  payload : Option Fields
  error : Option Value

/-- What the queue is given: a request id, a frame and the time. -/
structure Response (φ : Type*) where
  requestId : String
  frame : φ
  createdAt : String
  deriving DecidableEq

/-- The arguments of a `sendResponse`, and the times that it and its `enqueue` read. -/
structure Arguments where
  requestId : String
  ok : Bool
  payload : Option Fields
  error : Option Value
  ts : String
  createdAt : String

/-- The frame that `sendResponse` makes. -/
def Arguments.frame (a : Arguments) : Frame where
  id := a.requestId
  ok := a.ok
  ts := a.ts
  payload := if a.ok then some ((a.payload.map compactGatewayResponsePayload).getD []) else none
  error :=
    if a.ok then none
    else some (a.error.getD (.object [("message", .string "Unknown gateway request failure.")]))

def Arguments.response (a : Arguments) : Response Frame := ⟨a.requestId, a.frame, a.createdAt⟩

/-! ### The list -/

variable {φ : Type*}

/-- An entry of the stored list. -/
structure Item (φ : Type*) where
  requestId : String
  frame : φ
  createdAt : String
  attempts : Nat
  deriving DecidableEq

/-- `String(requestId || "").trim()` -/
def tokenOf (requestId : String) : String := Text.trim Text.jsSpace requestId

/-- The id without the blanks around it. -/
def Response.token (r : Response φ) : String := tokenOf r.requestId

/-- The entry of a response. -/
def Response.item (r : Response φ) : Item φ := ⟨r.token, r.frame, r.createdAt, 0⟩

/-- The list without the entry of a request; what `remove` saves. -/
def without (token : String) (items : List (Item φ)) : List (Item φ) :=
  items.filter (·.requestId ≠ token)

/-- The list that `enqueue` saves. -/
def enqueued (r : Response φ) (items : List (Item φ)) : List (Item φ) :=
  without r.token items ++ [r.item]

/-! ### Processes -/

/-- Where a process is. `todo` are the frames still to be handed over, with their request ids, and `sent`
    is the one whose send has just returned; `ticket` is the number of the write that it waits for. -/
inductive Stage (φ : Type*) where
  | journaling
  | enqueuing
  | enqueueSaving (seen next : List (Item φ))
  | enqueueLanding (ticket : Nat)
  | listing
  | sending (todo : List (String × φ))
  | removing (token : String) (sent : φ) (todo : List (String × φ))
  | removeSaving (token : String) (sent : φ) (seen next : List (Item φ)) (todo : List (String × φ))
  | removeLanding (ticket : Nat) (todo : List (String × φ))
  | done
  deriving DecidableEq

/-- A `sendResponse` with its response, or a flush. `ticket` is the number of the write that put the
    response on the list. -/
structure Process (φ : Type*) where
  response : Option (Response φ)
  ticket : Option Nat
  stage : Stage φ
  deriving DecidableEq

/-- The stored list, the socket, and the processes; with a ghost, the frames handed to the socket. -/
structure State (φ : Type*) where
  file : SerializedFile (List (Item φ))
  joined : Nat
  socketOpen : Bool
  handed : List φ
  processes : List (Process φ)
  deriving DecidableEq

def start (items : List (Item φ)) : State φ where
  file := ⟨items, []⟩
  joined := 0
  socketOpen := false
  handed := []
  processes := []

/-- How many writes have landed. -/
def State.landed (s : State φ) : Nat := s.joined - s.file.lane.length

def State.setStage (s : State φ) (i : Nat) (p : Process φ) (stage : Stage φ) : State φ :=
  { s with processes := s.processes.set i { p with stage := stage } }

/-- A write joins the chain; `ticket` is that of the process from then on. -/
def State.join (s : State φ) (i : Nat) (p : Process φ) (items : List (Item φ))
    (ticket : Option Nat) (stage : Stage φ) : State φ :=
  { s with
    file := s.file.join items
    joined := s.joined + 1
    processes := s.processes.set i ⟨p.response, ticket, stage⟩ }

/-- A frame is handed to the socket. -/
def State.hand (s : State φ) (i : Nat) (p : Process φ) (frame : φ) (stage : Stage φ) : State φ :=
  { s with
    handed := s.handed ++ [frame]
    processes := s.processes.set i { p with stage := stage } }

/-- `sent` is whether the `send` of the socket returns. -/
inductive Label (φ : Type*) where
  | respond (r : Response φ)
  | flush
  | socket (isOpen : Bool)
  | journal (i : Nat)
  | read (i : Nat)
  | join (i : Nat)
  | settle (i : Nat)
  | send (i : Nat) (sent : Bool)
  | land

variable (encodes : φ → Bool)

/-- `sendEncodedResponseNow` for the first frame of `todo`, and what follows it. A frame that
    `encodeFrame` rejects is not handed over, but nothing is thrown. -/
def State.send (s : State φ) (i : Nat) (p : Process φ) (sent : Bool) :
    List (String × φ) → State φ
  | [] => s.setStage i p .done
  | (requestId, frame) :: todo =>
    let next : Stage φ :=
      if tokenOf requestId = "" then .sending todo else .removing (tokenOf requestId) frame todo
    if ¬ s.socketOpen then s.setStage i p .done
    else if ¬ encodes frame then s.setStage i p next
    else if ¬ sent then s.setStage i p .done
    else s.hand i p frame next

/-- What a read of the list leads to. -/
def Process.loaded (p : Process φ) (items : List (Item φ)) : Option (Stage φ) :=
  match p.stage, p.response with
  | .enqueuing, some r => some (.enqueueSaving items (enqueued r items))
  | .listing, _ => some (.sending (items.map fun item => (item.requestId, item.frame)))
  | .removing token frame todo, _ =>
    if (without token items).length = items.length then some (.sending todo)
    else some (.removeSaving token frame items (without token items) todo)
  | _, _ => none

/-- What a process does next once the write that it waits for has landed. -/
def Process.settled (p : Process φ) (landed : Nat) : Option (Stage φ) :=
  match p.stage, p.response with
  | .enqueueLanding ticket, some r =>
    if ticket ≤ landed then some (.sending [(r.requestId, r.frame)]) else none
  | .removeLanding ticket todo, _ => if ticket ≤ landed then some (.sending todo) else none
  | _, _ => none

/-- `enqueue` leaves a response without a request id alone. -/
def Process.journaled (p : Process φ) : Option (Stage φ) :=
  match p.stage, p.response with
  | .journaling, some r =>
    if r.token = "" then some (.sending [(r.requestId, r.frame)]) else some .enqueuing
  | _, _ => none

def step (s : State φ) : Label φ → Option (State φ)
  | .respond r => some { s with processes := s.processes ++ [⟨some r, none, .journaling⟩] }
  | .flush => some { s with processes := s.processes ++ [⟨none, none, .listing⟩] }
  | .socket isOpen => some { s with socketOpen := isOpen }
  | .journal i => (s.processes[i]?).bind fun p => p.journaled.map (s.setStage i p)
  | .read i => (s.processes[i]?).bind fun p => (p.loaded s.file.content).map (s.setStage i p)
  | .settle i => (s.processes[i]?).bind fun p => (p.settled s.landed).map (s.setStage i p)
  | .join i => (s.processes[i]?).bind fun p =>
    match p.stage with
    | .enqueueSaving _ next =>
      some (s.join i p next (some (s.joined + 1)) (.enqueueLanding (s.joined + 1)))
    | .removeSaving _ _ _ next todo =>
      some (s.join i p next p.ticket (.removeLanding (s.joined + 1) todo))
    | _ => none
  | .send i sent => (s.processes[i]?).bind fun p =>
    match p.stage with
    | .sending todo => some (s.send encodes i p sent todo)
    | _ => none
  | .land => s.file.land.map fun f => { s with file := f }

/-! ### Regular runs -/

/-- A frame that goes to an open socket encodes. -/
def Process.Encodes (p : Process φ) (s : State φ) : Prop :=
  match p.stage with
  | .sending ((_, frame) :: _) => s.socketOpen → encodes frame
  | _ => True

/-- A write joins the chain while the newest list is the one that its process has read, and a removal
    finds no other frame under its request id than the one that its process has just sent. -/
def Process.Current (p : Process φ) (s : State φ) : Prop :=
  match p.stage with
  | .enqueueSaving seen _ => s.file.latest = seen
  | .removeSaving token frame seen _ _ =>
    s.file.latest = seen ∧ ∀ item ∈ seen, item.requestId = token → item.frame = frame
  | _ => True

def Regular (s : State φ) : Label φ → Prop
  | .send i _ => ∀ p ∈ s.processes[i]?, p.Encodes encodes s
  | .join i => ∀ p ∈ s.processes[i]?, p.Current s
  | _ => True

instance (p : Process φ) (s : State φ) : Decidable (p.Encodes encodes s) := by
  unfold Process.Encodes
  split <;> infer_instance

instance [DecidableEq φ] (p : Process φ) (s : State φ) : Decidable (p.Current s) := by
  unfold Process.Current
  split <;> infer_instance

instance [DecidableEq φ] (s : State φ) : (l : Label φ) → Decidable (Regular encodes s l)
  | .send i _ => inferInstanceAs (Decidable (∀ p ∈ s.processes[i]?, p.Encodes encodes s))
  | .join i => inferInstanceAs (Decidable (∀ p ∈ s.processes[i]?, p.Current s))
  | .respond _ | .flush | .socket _ | .journal _ | .read _ | .settle _ | .land => .isTrue trivial

/-- The `enqueue` of the process has returned. -/
def Stage.returned : Stage φ → Bool
  | .sending _ | .removing _ _ _ | .removeSaving _ _ _ _ _ | .removeLanding _ _ | .done => true
  | _ => false

/-- The frame whose entry the process takes off the list. -/
def Stage.sent : Stage φ → Option φ
  | .removing _ frame _ | .removeSaving _ frame _ _ _ => some frame
  | _ => none

/-- A later response with the same request id has been put on the list. -/
def Replaced (s : State φ) (p : Process φ) (r : Response φ) : Prop :=
  ∃ q ∈ s.processes, ∃ r', q.response = some r' ∧ r'.token = r.token ∧
    ∃ n ∈ p.ticket, ∃ m ∈ q.ticket, n < m

/-- The frame of the response has been handed over, or the list has it, or it has been replaced. -/
def Covered (s : State φ) (p : Process φ) (r : Response φ) (items : List (Item φ)) : Prop :=
  r.frame ∈ s.handed ∨
    (∃ item ∈ items, item.requestId = r.token ∧ item.frame = r.frame) ∨ Replaced s p r

/-- A response with a request id is on the list, by a write that has landed. -/
def Process.Written (p : Process φ) (landed : Nat) : Prop :=
  ∀ r, p.response = some r → r.token ≠ "" → ∃ n ∈ p.ticket, n ≤ landed

/-- What a process has to do with the list at each stage. -/
def Process.Fits (p : Process φ) (landed : Nat) : Prop :=
  match p.stage with
  | .journaling | .enqueuing => p.ticket = none
  | .enqueueSaving seen next => p.ticket = none ∧ ∃ r, p.response = some r ∧ next = enqueued r seen
  | .enqueueLanding ticket => p.ticket = some ticket
  | .listing => p.response = none
  | .removeSaving token _ seen next _ => next = without token seen ∧ p.Written landed
  | .sending _ | .removing _ _ _ | .removeLanding _ _ | .done => p.Written landed

/-- What holds in a regular run: a frame is removed once it has been handed over, and `covered` goes
    through the list and its writes on the chain, each from the write on that put the response there. -/
structure Sound (s : State φ) : Prop where
  count : s.file.lane.length ≤ s.joined
  tickets : ∀ p ∈ s.processes, ∀ n ∈ p.ticket, n ≤ s.joined
  fits : ∀ p ∈ s.processes, p.Fits s.landed
  sent : ∀ p ∈ s.processes, ∀ frame ∈ p.stage.sent, frame ∈ s.handed
  covered : ∀ p ∈ s.processes, ∀ r, p.response = some r → ∀ n ∈ p.ticket,
    ∀ (k : Nat) (items : List (Item φ)), (s.file.content :: s.file.lane)[k]? = some items →
      n ≤ s.landed + k → Covered s p r items

theorem sound_start (items : List (Item φ)) : Sound (start items) where
  count := Nat.le_refl 0
  tickets := fun _ hp => absurd hp List.not_mem_nil
  fits := fun _ hp => absurd hp List.not_mem_nil
  sent := fun _ hp => absurd hp List.not_mem_nil
  covered := fun _ hp => absurd hp List.not_mem_nil

variable {encodes} {s t : State φ} {l : Label φ} {p q : Process φ} {r : Response φ}
  {items : List (Item φ)} {i : Nat} {stage : Stage φ}

/-- Nothing handed over is forgotten, and no process loses its response or its ticket. -/
structure Grows (s t : State φ) : Prop where
  handed : ∀ frame ∈ s.handed, frame ∈ t.handed
  processes : ∀ p ∈ s.processes, ∃ q ∈ t.processes,
    q.response = p.response ∧ ∀ n ∈ p.ticket, n ∈ q.ticket

theorem replaced_grows (h : Grows s t) (hticket : ∀ n ∈ p.ticket, n ∈ q.ticket)
    (hreplaced : Replaced s p r) : Replaced t q r := by
  obtain ⟨p', hp', r', hr', htoken, n, hn, m, hm, hlt⟩ := hreplaced
  obtain ⟨q', hq', hresponse, htickets⟩ := h.processes p' hp'
  exact ⟨q', hq', r', hresponse.trans hr', htoken, n, hticket n hn, m, htickets m hm, hlt⟩

theorem covered_grows (h : Grows s t) (hticket : ∀ n ∈ p.ticket, n ∈ q.ticket)
    (hcovered : Covered s p r items) : Covered t q r items := by
  rcases hcovered with hframe | hitem | hreplaced
  · exact Or.inl (h.handed _ hframe)
  · exact Or.inr (Or.inl hitem)
  · exact Or.inr (Or.inr (replaced_grows h hticket hreplaced))

theorem written_mono {landed landed' : Nat} (h : p.Written landed) (hle : landed ≤ landed') :
    p.Written landed' := by
  intro r hr htoken
  obtain ⟨n, hn, hnl⟩ := h r hr htoken
  exact ⟨n, hn, Nat.le_trans hnl hle⟩

theorem fits_mono {landed landed' : Nat} (h : p.Fits landed) (hle : landed ≤ landed') :
    p.Fits landed' := by
  cases hstage : p.stage with
  | journaling | enqueuing | enqueueSaving seen next | enqueueLanding ticket | listing =>
    simp only [Process.Fits, hstage] at h ⊢
    exact h
  | removeSaving token frame seen next todo =>
    simp only [Process.Fits, hstage] at h ⊢
    exact ⟨h.1, written_mono h.2 hle⟩
  | sending todo | removing token frame todo | removeLanding ticket todo | done =>
    simp only [Process.Fits, hstage] at h ⊢
    exact written_mono h hle

/-- Once the `enqueue` of a process has returned its response is on the list by a landed write. -/
theorem Process.Fits.written {landed : Nat} (h : p.Fits landed) (hreturned : p.stage.returned) :
    p.Written landed := by
  unfold Process.Fits at h
  cases hstage : p.stage with
  | journaling | enqueuing | enqueueSaving seen next | enqueueLanding ticket | listing =>
    simp [hstage, Stage.returned] at hreturned
  | removeSaving token frame seen next todo =>
    simp only [hstage] at h
    exact h.2
  | sending todo | removing token frame todo | removeLanding ticket todo | done =>
    simp only [hstage] at h
    exact h

/-! ### What the steps keep -/

theorem grows_set (hi : s.processes[i]? = some p) (hresponse : q.response = p.response)
    (hticket : ∀ n ∈ p.ticket, n ∈ q.ticket) (hhanded : ∀ frame ∈ s.handed, frame ∈ t.handed)
    (hprocesses : t.processes = s.processes.set i q) : Grows s t where
  handed := hhanded
  processes := by
    intro p' hp'
    obtain ⟨k, hk⟩ := List.mem_iff_getElem?.mp hp'
    rw [hprocesses]
    rcases Chain.getElem?_set_of q hi hk with ⟨-, rfl, hk'⟩ | ⟨-, hk'⟩
    · exact ⟨q, List.mem_of_getElem? hk', hresponse, hticket⟩
    · exact ⟨p', List.mem_of_getElem? hk', rfl, fun _ hn => hn⟩

/-- A step of one process that leaves the file alone. -/
theorem sound_stay (h : Sound s) (hi : s.processes[i]? = some p)
    (hfits : ({ p with stage := stage } : Process φ).Fits s.landed)
    (hsent : ∀ frame ∈ stage.sent, frame ∈ t.handed) (hfile : t.file = s.file)
    (hjoined : t.joined = s.joined) (hhanded : ∀ frame ∈ s.handed, frame ∈ t.handed)
    (hprocesses : t.processes = s.processes.set i { p with stage := stage }) : Sound t := by
  have hgrows : Grows s t :=
    grows_set (q := { p with stage := stage }) hi rfl (fun _ hn => hn) hhanded hprocesses
  have hlanded : t.landed = s.landed := by rw [State.landed, State.landed, hfile, hjoined]
  have hmem : ∀ q ∈ t.processes, ∃ q' ∈ s.processes, q.response = q'.response ∧
      q.ticket = q'.ticket := by
    intro q hq
    rw [hprocesses] at hq
    rcases List.mem_or_eq_of_mem_set hq with hq | rfl
    · exact ⟨q, hq, rfl, rfl⟩
    · exact ⟨p, List.mem_of_getElem? hi, rfl, rfl⟩
  refine ⟨?_, ?_, ?_, ?_, ?_⟩
  · rw [hfile, hjoined]
    exact h.count
  · intro q hq n hn
    obtain ⟨q', hq', -, hticket⟩ := hmem q hq
    rw [hjoined]
    exact h.tickets q' hq' n (hticket ▸ hn)
  · intro q hq
    rw [hprocesses] at hq
    rw [hlanded]
    rcases List.mem_or_eq_of_mem_set hq with hq | rfl
    · exact h.fits q hq
    · exact hfits
  · intro q hq frame hframe
    rw [hprocesses] at hq
    rcases List.mem_or_eq_of_mem_set hq with hq | rfl
    · exact hhanded frame (h.sent q hq frame hframe)
    · exact hsent frame hframe
  · intro q hq r hr n hn k items hk hle
    obtain ⟨q', hq', hresponse, hticket⟩ := hmem q hq
    rw [hfile] at hk
    rw [hlanded] at hle
    refine covered_grows hgrows (fun m hm => hticket ▸ hm) ?_
    exact h.covered q' hq' r (hresponse ▸ hr) n (hticket ▸ hn) k items hk hle

/-- A process starts. -/
theorem sound_start_process (h : Sound s) (hticket : q.ticket = none) (hsent : q.stage.sent = none)
    (hfits : q.Fits s.landed) :
    Sound { s with processes := s.processes ++ [q] } := by
  have hgrows : Grows s { s with processes := s.processes ++ [q] } :=
    ⟨fun _ hframe => hframe, fun p hp => ⟨p, List.mem_append_left _ hp, rfl, fun _ hn => hn⟩⟩
  have hmem : ∀ p ∈ s.processes ++ [q], p ∈ s.processes ∨ p = q := fun p hp =>
    (List.mem_append.mp hp).imp id List.mem_singleton.mp
  refine ⟨h.count, ?_, ?_, ?_, ?_⟩
  · intro p hp n hn
    rcases hmem p hp with hp | rfl
    · exact h.tickets p hp n hn
    · simp [hticket] at hn
  · intro p hp
    rcases hmem p hp with hp | rfl
    · exact h.fits p hp
    · exact hfits
  · intro p hp frame hframe
    rcases hmem p hp with hp | rfl
    · exact h.sent p hp frame hframe
    · simp [hsent] at hframe
  · intro p hp r hr n hn k items hk hle
    rcases hmem p hp with hp | rfl
    · exact covered_grows hgrows (fun _ hm => hm) (h.covered p hp r hr n hn k items hk hle)
    · simp [hticket] at hn

/-- A write that lands keeps the accounting. -/
theorem sound_land (h : Sound s) {f : SerializedFile (List (Item φ))} (hf : s.file.land = some f) :
    Sound { s with file := f } := by
  have hlane := SerializedFile.land_eq_some hf
  have hcount : f.lane.length + 1 ≤ s.joined := by
    have hcount := h.count
    rwa [hlane, List.length_cons] at hcount
  have hlanded : ({ s with file := f } : State φ).landed = s.landed + 1 := by
    simp only [State.landed, hlane, List.length_cons]
    omega
  refine ⟨by simp only; omega, h.tickets, ?_, h.sent, ?_⟩
  · intro p hp
    rw [hlanded]
    exact fits_mono (h.fits p hp) (Nat.le_succ _)
  · intro p hp r hr n hn k items hk hle
    rw [hlanded] at hle
    have hk' : (s.file.content :: s.file.lane)[k + 1]? = some items := by
      rw [List.getElem?_cons_succ, hlane]
      exact hk
    exact h.covered p hp r hr n hn (k + 1) items hk' (by omega)

/-- The newest list comes last. -/
theorem latest_last (f : SerializedFile (List (Item φ))) :
    (f.content :: f.lane)[f.lane.length]? = some f.latest := by
  have hlast : (f.content :: f.lane).getLast? =
      (f.content :: f.lane)[(f.content :: f.lane).length - 1]? := List.getLast?_eq_getElem?
  rw [List.length_cons, Nat.add_sub_cancel] at hlast
  rw [← hlast, List.getLast?_cons, SerializedFile.latest]

/-- A write that keeps everything covered joins the chain. -/
theorem sound_join (h : Sound s) (hi : s.processes[i]? = some p) {next : List (Item φ)}
    {ticket : Option Nat} (hticket : ticket = p.ticket ∨ (p.ticket = none ∧ ticket = some (s.joined + 1)))
    (hfits : (⟨p.response, ticket, stage⟩ : Process φ).Fits s.landed) (hsent : stage.sent = none)
    (hold : ∀ q r, Covered s q r s.file.latest →
      (∀ n ∈ q.ticket, n ≤ s.joined) → (∃ n, n ∈ q.ticket) →
      Covered (s.join i p next ticket stage) q r next)
    (hnew : ∀ r, p.response = some r → ticket = some (s.joined + 1) →
      ∃ item ∈ next, item.requestId = r.token ∧ item.frame = r.frame) :
    Sound (s.join i p next ticket stage) := by
  have htickets : ∀ n ∈ p.ticket, n ∈ ticket := by
    intro n hn
    rcases hticket with rfl | ⟨hnone, -⟩
    · exact hn
    · simp [hnone] at hn
  have hgrows : Grows s (s.join i p next ticket stage) :=
    grows_set (q := ⟨p.response, ticket, stage⟩) hi rfl htickets (fun _ hframe => hframe) rfl
  have hlanded : (s.join i p next ticket stage).landed = s.landed := by
    simp only [State.landed, State.join, SerializedFile.join, List.length_append,
      List.length_singleton]
    omega
  refine ⟨?_, ?_, ?_, ?_, ?_⟩
  · simpa [State.join, SerializedFile.join] using h.count
  · intro q hq n hn
    rcases List.mem_or_eq_of_mem_set hq with hq | rfl
    · exact Nat.le_succ_of_le (h.tickets q hq n hn)
    · rcases hticket with rfl | ⟨-, rfl⟩
      · exact Nat.le_succ_of_le (h.tickets p (List.mem_of_getElem? hi) n hn)
      · exact Nat.le_of_eq (Option.mem_some_iff.mp hn).symm
  · intro q hq
    rw [hlanded]
    rcases List.mem_or_eq_of_mem_set hq with hq | rfl
    · exact h.fits q hq
    · exact hfits
  · intro q hq frame hframe
    rcases List.mem_or_eq_of_mem_set hq with hq | rfl
    · exact h.sent q hq frame hframe
    · simp [hsent] at hframe
  · intro q hq r hr n hn k items hk hle
    rw [hlanded] at hle
    have hcount := h.count
    -- a process that had a ticket before is covered by the newest list before
    have hearlier : ∀ q ∈ s.processes, q.response = some r → n ∈ q.ticket →
        Covered (s.join i p next ticket stage) q r items := by
      intro q hq hr hn
      have hk' : (s.file.content :: s.file.lane ++ [next])[k]? = some items := hk
      rcases Chain.getElem?_snoc_cases hk' with hk' | ⟨-, rfl⟩
      · exact covered_grows hgrows (fun _ hm => hm) (h.covered q hq r hr n hn k items hk' hle)
      · refine hold q r ?_ (h.tickets q hq) ⟨n, hn⟩
        refine h.covered q hq r hr n hn s.file.lane.length _ (latest_last s.file) ?_
        have hn' := h.tickets q hq n hn
        simp only [State.landed]
        omega
    rcases List.mem_or_eq_of_mem_set hq with hq | rfl
    · exact hearlier q hq hr hn
    · rcases hticket with rfl | ⟨-, rfl⟩
      · exact hearlier p (List.mem_of_getElem? hi) hr hn
      · have hk' : (s.file.content :: s.file.lane ++ [next])[k]? = some items := hk
        rcases Chain.getElem?_snoc_cases hk' with hk' | ⟨-, rfl⟩
        · obtain ⟨hlt, -⟩ := List.getElem?_eq_some_iff.mp hk'
          rw [List.length_cons] at hlt
          rw [Option.mem_some_iff] at hn
          simp only [State.landed] at hle
          omega
        · exact Or.inr (Or.inl (hnew r hr rfl))

theorem mem_without {token : String} {item : Item φ} :
    item ∈ without token items ↔ item ∈ items ∧ item.requestId ≠ token := by
  simp [without]

/-- The write of an `enqueue`: what it takes off the list it replaces. -/
theorem sound_enqueue (h : Sound s) (hi : s.processes[i]? = some p) {seen next : List (Item φ)}
    (hstage : p.stage = .enqueueSaving seen next) (hfresh : s.file.latest = seen) :
    Sound (s.join i p next (some (s.joined + 1)) (.enqueueLanding (s.joined + 1))) := by
  have hfits := h.fits p (List.mem_of_getElem? hi)
  simp only [Process.Fits, hstage] at hfits
  obtain ⟨hnone, r₀, hr₀, rfl⟩ := hfits
  refine sound_join h hi (Or.inr ⟨hnone, rfl⟩) rfl rfl ?_ ?_
  · intro q r hcovered hle hsome
    rcases hcovered with hframe | ⟨item, hitem, htoken, hframe⟩ | hreplaced
    · exact Or.inl hframe
    · by_cases hsame : r.token = r₀.token
      · obtain ⟨n, hn⟩ := hsome
        refine Or.inr (Or.inr ⟨⟨p.response, some (s.joined + 1), .enqueueLanding (s.joined + 1)⟩,
          List.mem_set (List.getElem?_eq_some_iff.mp hi).1 _, r₀, hr₀, hsame.symm, n, hn,
          s.joined + 1, rfl, Nat.lt_succ_of_le (hle n hn)⟩)
      · refine Or.inr (Or.inl ⟨item, List.mem_append_left _ (mem_without.mpr ⟨?_, ?_⟩), htoken,
          hframe⟩)
        · rwa [← hfresh]
        · rwa [htoken]
    · have hgrows : Grows s (s.join i p (enqueued r₀ seen) (some (s.joined + 1))
          (.enqueueLanding (s.joined + 1))) :=
        grows_set (q := ⟨p.response, some (s.joined + 1), .enqueueLanding (s.joined + 1)⟩) hi rfl
          (fun n hn => by simp [hnone] at hn) (fun _ hframe => hframe) rfl
      exact Or.inr (Or.inr (replaced_grows hgrows (fun _ hm => hm) hreplaced))
  · intro r hr _
    obtain rfl : r₀ = r := Option.some.inj (hr₀.symm.trans hr)
    exact ⟨r₀.item, List.mem_append_right _ (List.mem_singleton.mpr rfl), rfl, rfl⟩

/-- The write of a `remove`: what it takes off the list is the frame that has been handed over. -/
theorem sound_remove (h : Sound s) (hi : s.processes[i]? = some p) {token : String} {frame : φ}
    {seen next : List (Item φ)} {todo : List (String × φ)}
    (hstage : p.stage = .removeSaving token frame seen next todo) (hfresh : s.file.latest = seen)
    (hsame : ∀ item ∈ seen, item.requestId = token → item.frame = frame) :
    Sound (s.join i p next p.ticket (.removeLanding (s.joined + 1) todo)) := by
  have hfits := h.fits p (List.mem_of_getElem? hi)
  simp only [Process.Fits, hstage] at hfits
  obtain ⟨rfl, hwritten⟩ := hfits
  have hhanded : frame ∈ s.handed :=
    h.sent p (List.mem_of_getElem? hi) frame (by rw [hstage]; rfl)
  refine sound_join h hi (Or.inl rfl) hwritten rfl ?_ ?_
  · intro q r hcovered hle hsome
    rcases hcovered with hframe | ⟨item, hitem, htoken, hframe⟩ | hreplaced
    · exact Or.inl hframe
    · rw [hfresh] at hitem
      by_cases hremoved : item.requestId = token
      · have hsent : r.frame = frame := hframe.symm.trans (hsame item hitem hremoved)
        exact Or.inl (hsent ▸ hhanded)
      · exact Or.inr (Or.inl ⟨item, mem_without.mpr ⟨hitem, hremoved⟩, htoken, hframe⟩)
    · have hgrows : Grows s (s.join i p (without token seen) p.ticket
          (.removeLanding (s.joined + 1) todo)) :=
        grows_set (q := ⟨p.response, p.ticket, .removeLanding (s.joined + 1) todo⟩) hi rfl
          (fun _ hn => hn) (fun _ hframe => hframe) rfl
      exact Or.inr (Or.inr (replaced_grows hgrows (fun _ hm => hm) hreplaced))
  · intro r hr hticket
    have hle := h.tickets p (List.mem_of_getElem? hi) (s.joined + 1) hticket
    omega

/-! ### Regular runs lose no response -/

/-- The stage that follows fits where the one before did. -/
theorem fits_journaled {landed : Nat} (h : p.Fits landed) (hstage : p.journaled = some stage) :
    ({ p with stage := stage } : Process φ).Fits landed := by
  unfold Process.journaled at hstage
  split at hstage <;> [skip; simp at hstage]
  rename_i r hp hr
  simp only [Process.Fits, hp] at h
  split at hstage
  · rename_i htoken
    rw [← Option.some.inj hstage]
    intro r' hr' hne
    obtain rfl : r = r' := Option.some.inj (hr.symm.trans hr')
    exact absurd htoken hne
  · rw [← Option.some.inj hstage]
    exact h

theorem fits_loaded {landed : Nat} (h : p.Fits landed) (hstage : p.loaded items = some stage) :
    ({ p with stage := stage } : Process φ).Fits landed := by
  unfold Process.loaded at hstage
  split at hstage <;> [skip; skip; skip; simp at hstage]
  · rename_i r hp hr
    simp only [Process.Fits, hp] at h
    rw [← Option.some.inj hstage]
    exact ⟨h, r, hr, rfl⟩
  · rename_i hp
    simp only [Process.Fits, hp] at h
    rw [← Option.some.inj hstage]
    intro r hr
    simp [h] at hr
  · rename_i token frame todo hp
    simp only [Process.Fits, hp] at h
    split at hstage
    · rw [← Option.some.inj hstage]
      exact h
    · rw [← Option.some.inj hstage]
      exact ⟨rfl, h⟩

theorem fits_settled {landed : Nat} (h : p.Fits landed) (hstage : p.settled landed = some stage) :
    ({ p with stage := stage } : Process φ).Fits landed := by
  unfold Process.settled at hstage
  split at hstage <;> [skip; skip; simp at hstage]
  · rename_i ticket r hp hr
    simp only [Process.Fits, hp] at h
    split at hstage <;> [skip; simp at hstage]
    rename_i hle
    rw [← Option.some.inj hstage]
    exact fun _ _ _ => ⟨ticket, h, hle⟩
  · rename_i ticket todo hp
    simp only [Process.Fits, hp] at h
    split at hstage <;> [skip; simp at hstage]
    rw [← Option.some.inj hstage]
    exact h

/-- The three moves that send nothing remove nothing else than before. -/
theorem sent_journaled (hstage : p.journaled = some stage) : stage.sent = none := by
  unfold Process.journaled at hstage
  split at hstage <;> [skip; simp at hstage]
  split at hstage <;> · rw [← Option.some.inj hstage]; rfl

theorem sent_settled {landed : Nat} (hstage : p.settled landed = some stage) : stage.sent = none := by
  unfold Process.settled at hstage
  split at hstage <;> [skip; skip; simp at hstage]
  all_goals
    split at hstage <;> [skip; simp at hstage]
    rw [← Option.some.inj hstage]
    rfl

theorem sent_loaded (hstage : p.loaded items = some stage) {frame : φ} (hframe : frame ∈ stage.sent) :
    frame ∈ p.stage.sent := by
  unfold Process.loaded at hstage
  split at hstage <;> [skip; skip; skip; simp at hstage]
  · rw [← Option.some.inj hstage] at hframe
    simp [Stage.sent] at hframe
  · rw [← Option.some.inj hstage] at hframe
    simp [Stage.sent] at hframe
  · rename_i token sent todo hp
    rw [hp]
    split at hstage
    · rw [← Option.some.inj hstage] at hframe
      simp [Stage.sent] at hframe
    · rw [← Option.some.inj hstage] at hframe
      exact hframe

/-- A step of one process that joins no write and hands nothing over. -/
theorem sound_move (h : Sound s) {next : Process φ → Option (Stage φ)}
    (hfits : ∀ p stage, p.Fits s.landed → next p = some stage →
      ({ p with stage := stage } : Process φ).Fits s.landed)
    (hsent : ∀ p stage, next p = some stage → ∀ frame ∈ stage.sent, frame ∈ p.stage.sent)
    (hst : ((s.processes[i]?).bind fun p => (next p).map (s.setStage i p)) = some t) : Sound t := by
  obtain ⟨p, hi, hp⟩ := Option.bind_eq_some_iff.mp hst
  obtain ⟨stage, hstage, rfl⟩ := Option.map_eq_some_iff.mp hp
  have hstay : ({ p with stage := stage } : Process φ).Fits s.landed :=
    hfits p stage (h.fits p (List.mem_of_getElem? hi)) hstage
  have hhanded : ∀ frame ∈ stage.sent, frame ∈ s.handed := fun frame hframe =>
    h.sent p (List.mem_of_getElem? hi) frame (hsent p stage hstage frame hframe)
  exact sound_stay h hi hstay hhanded rfl rfl (fun _ hframe => hframe) rfl

/-- The frame that a process removes next is the one that `send` has handed over: where `encodes` rejects a
    frame, it would be removed without. -/
theorem sound_send (h : Sound s) (hi : s.processes[i]? = some p) {todo : List (String × φ)}
    (hstage : p.stage = .sending todo) (hencodes : p.Encodes encodes s) (sent : Bool) :
    Sound (s.send encodes i p sent todo) := by
  have hwritten : p.Written s.landed :=
    (h.fits p (List.mem_of_getElem? hi)).written (by rw [hstage]; rfl)
  have hdone : Sound (s.setStage i p .done) := by
    have hfits : ({ p with stage := .done } : Process φ).Fits s.landed := hwritten
    exact sound_stay h hi hfits (fun _ hframe => absurd hframe (Option.not_mem_none _)) rfl rfl
      (fun _ hframe => hframe) rfl
  cases todo with
  | nil => exact hdone
  | cons head todo =>
    obtain ⟨requestId, frame⟩ := head
    have hnext : ({ p with
        stage := if tokenOf requestId = "" then .sending todo
          else .removing (tokenOf requestId) frame todo } : Process φ).Fits s.landed := by
      split_ifs <;> exact hwritten
    have hsent : ∀ other ∈ (if tokenOf requestId = "" then .sending todo
        else .removing (tokenOf requestId) frame todo : Stage φ).sent, other ∈ s.handed ++ [frame] := by
      intro other hother
      split at hother
      · exact absurd hother (Option.not_mem_none _)
      · exact List.mem_append_right _ (List.mem_singleton.mpr (Option.some.inj hother).symm)
    simp only [State.send]
    split
    · exact hdone
    rename_i hopen
    split
    · rename_i hrejected
      simp only [Process.Encodes, hstage] at hencodes
      exact absurd (hencodes (not_not.mp hopen)) hrejected
    split
    · exact hdone
    · exact sound_stay h hi hnext hsent rfl rfl (fun _ hframe => List.mem_append_left _ hframe) rfl

/-- One regular step keeps every response accounted for. -/
theorem sound_step (h : Sound s) (hregular : Regular encodes s l) (hst : step encodes s l = some t) :
    Sound t := by
  cases l with
  | respond r =>
    rw [← Option.some.inj hst]
    exact sound_start_process h rfl rfl rfl
  | flush =>
    rw [← Option.some.inj hst]
    exact sound_start_process h rfl rfl rfl
  | socket isOpen =>
    rw [← Option.some.inj hst]
    exact ⟨h.count, h.tickets, h.fits, h.sent, h.covered⟩
  | journal i =>
    refine sound_move h (fun _ _ => fits_journaled) (fun _ _ hstage frame hframe => ?_) hst
    simp [sent_journaled hstage] at hframe
  | read i => exact sound_move h (fun _ _ => fits_loaded) (fun _ _ hstage _ => sent_loaded hstage) hst
  | settle i =>
    refine sound_move h (fun _ _ => fits_settled) (fun _ _ hstage frame hframe => ?_) hst
    simp [sent_settled hstage] at hframe
  | join i =>
    obtain ⟨p, hi, hp⟩ := Option.bind_eq_some_iff.mp hst
    have hregular' := hregular p hi
    cases hstage : p.stage with
    | enqueueSaving seen next =>
      simp only [Process.Current, hstage] at hp hregular'
      exact Option.some.inj hp ▸ sound_enqueue h hi hstage hregular'
    | removeSaving token frame seen next todo =>
      simp only [Process.Current, hstage] at hp hregular'
      exact Option.some.inj hp ▸ sound_remove h hi hstage hregular'.1 hregular'.2
    | journaling | enqueuing | enqueueLanding _ | listing | sending _ | removing _ _ _
    | removeLanding _ _ | done => simp [hstage] at hp
  | send i sent =>
    obtain ⟨p, hi, hp⟩ := Option.bind_eq_some_iff.mp hst
    cases hstage : p.stage with
    | sending todo =>
      simp only [hstage] at hp
      exact Option.some.inj hp ▸ sound_send h hi hstage (hregular p hi) sent
    | journaling | enqueuing | enqueueSaving _ _ | enqueueLanding _ | listing | removing _ _ _
    | removeSaving _ _ _ _ _ | removeLanding _ _ | done => simp [hstage] at hp
  | land =>
    obtain ⟨f, hf, rfl⟩ := Option.map_eq_some_iff.mp hst
    exact sound_land h hf

/-- In a regular run every response with a request id whose `enqueue` has returned has been handed to
    an open socket or is on the list, unless a later response with its request id has replaced it. -/
theorem response_kept {old : List (Item φ)} {labels : List (Label φ)}
    (hregular : Run.Meets (step encodes) (Regular encodes) (start old) labels)
    (hrun : Run.run (step encodes) (start old) labels = some s) :
    ∀ p ∈ s.processes, ∀ r, p.response = some r → r.token ≠ "" → p.stage.returned →
      Covered s p r s.file.content := by
  have hs : Sound s := Run.run_inv (fun _ _ _ hs hl hst => sound_step hs hl hst) hregular
    (sound_start old) hrun
  intro p hp r hr htoken hreturned
  obtain ⟨n, hn, hle⟩ := (hs.fits p hp).written hreturned r hr htoken
  exact hs.covered p hp r hr n hn 0 s.file.content rfl hle

/-- The frames that were neither handed over nor are on the list, of the responses whose `enqueue` has
    returned. -/
def lost [DecidableEq φ] (s : State φ) : List φ :=
  ((s.processes.filter (·.stage.returned)).filterMap (·.response)).filterMap fun r =>
    if r.frame ∈ s.handed ∨ ∃ item ∈ s.file.content, item.frame = r.frame then none
    else some r.frame

/-- A response is put on the list, and process `i` tries to send it. -/
def queued (i : Nat) (r : Response String) : List (Label String) :=
  [.respond r, .journal i, .read i, .join i, .land, .settle i, .send i true]

/-- A response whose id has blanks around it. -/
def pong : Response String := ⟨" a ", "pong", "noon"⟩

def reply : Response String := ⟨"b", "reply", "noon"⟩

/-- Two responses without a socket; then a flush sends the first and the socket breaks. -/
def reconnected : List (Label String) :=
  queued 0 pong ++ queued 1 reply ++
    [Label.socket true, .flush, .read 2, .send 2 true, .read 2, .join 2, .land, .settle 2, .send 2 false]

/-- What was sent is off the list, and what was not is still on it. -/
theorem response_kept_reconnected :
    ∃ s, Run.run (step fun _ => true) (start []) reconnected = some s ∧
      s.handed = ["pong"] ∧ s.file.content.map (·.frame) = ["reply"] ∧
      ∀ p ∈ s.processes, ∀ r, p.response = some r → r.token ≠ "" → p.stage.returned →
        Covered s p r s.file.content := by
  have hregular : Run.Meets (step fun _ => true) (Regular fun _ => true) (start []) reconnected := by
    decide
  have hend : (Run.run (step fun _ => true) (start []) reconnected).map
      (fun s => (s.handed, s.file.content.map (·.frame))) = some (["pong"], ["reply"]) := by
    decide
  obtain ⟨s, hrun, hs⟩ := Option.map_eq_some_iff.mp hend
  rw [Prod.mk.injEq] at hs
  exact ⟨s, hrun, hs.1, hs.2, response_kept hregular hrun⟩

/-- A second response has the request id of the first. -/
def repeated : List (Label String) := queued 0 pong ++ queued 1 ⟨"a", "again", "noon"⟩

/-- A frame that does not encode is taken off the list all the same. -/
def rejected : List (Label String) :=
  [Label.socket true] ++ queued 0 pong ++ [Label.read 0, .join 0, .land, .settle 0, .send 0 true]

/-- Two responses read the list before either of them writes it. -/
def overlapping : List (Label String) :=
  [.respond pong, .respond reply, .journal 0, .journal 1, .read 0, .read 1, .join 0, .join 1, .land,
    .land, .settle 0, .settle 1, .send 0 true, .send 1 true]

/-- A flush sends a response; a second one with its request id joins before the first is removed. -/
def removedUnsent : List (Label String) :=
  queued 0 pong ++ [Label.socket true, .flush, .read 1, .send 1 true, .socket false] ++
    queued 2 ⟨"a", "again", "noon"⟩ ++ [Label.read 1, .join 1, .land]

/-- What is lost: a response that a newer one of its request id replaces, one that the codec refuses, one that an
overlapping write leaves out, and one that joins under the request id of a frame being removed. -/
theorem repeated_request_id_loses :
    (Run.run (step fun _ => true) (start []) repeated).map lost = some ["pong"] ∧
      (Run.run (step fun _ => false) (start []) rejected).map lost = some ["pong"] ∧
      (Run.run (step fun _ => true) (start []) overlapping).map lost = some ["pong"] ∧
      (Run.run (step fun _ => true) (start []) removedUnsent).map lost = some ["again"] := by
  decide

end Empyralis.Gateway.PendingResponses
