import Empyralis.Gateway.Outbox
import Empyralis.Lib.ReadModifyWrite
import Mathlib.Data.List.Permutation

/-! Outbox operations that run at the same time.

    An operation awaits `list()`, computes, and awaits `writeJson`; `writeJson` awaits `ensureReady()`
    and then joins the promise chain of the file. So the store is the asynchronous read-modify-write
    store over `written`: its labels interleave the reads and writes of any number of operations. -/

namespace Empyralis.Gateway.Outbox

open ReadModifyWrite (Fresh Quiescent)
open Run (Meets)

variable {π : Type*}

abbrev Store (π : Type*) := ReadModifyWrite.State (List (Item π)) (Op π)

abbrev StoreLabel (π : Type*) := ReadModifyWrite.Label (Op π)

def storeStep : Store π → StoreLabel π → Option (Store π) := ReadModifyWrite.step written

def runStore (init : List (Item π)) (ls : List (StoreLabel π)) : Option (Store π) :=
  Run.run storeStep (ReadModifyWrite.State.start init) ls

/-- When each write joins the file's chain while the newest list is the one its operation had read,
    the final list is that of the same operations run one after another. -/
theorem concurrent_serial {init : List (Item π)} {ls : List (StoreLabel π)} {s : Store π}
    (hfresh : Meets storeStep Fresh (ReadModifyWrite.State.start init) ls)
    (hrun : runStore init ls = some s) (hq : Quiescent s) :
    ∃ os : List (Op π), os.Perm (s.calls.map (·.op)) ∧
      s.file.content = os.foldl perform init :=
  ReadModifyWrite.serial_of_fresh hfresh hrun hq

def enqueueA : Op Unit := .enqueue "event:channel.inbound:1" "channel.inbound" () none "item-a" 0
def enqueueB : Op Unit := .enqueue "event:channel.inbound:2" "channel.inbound" () none "item-b" 0

/-- The second call starts once the write of the first has landed. -/
def inTurn : List (StoreLabel Unit) :=
  [.call enqueueA, .read 0, .compute 0, .join 0, .land,
    .call enqueueB, .read 1, .compute 1, .join 1, .land]

/-- Both calls read before either of them writes. -/
def overlapping : List (StoreLabel Unit) :=
  [.call enqueueA, .call enqueueB, .read 0, .read 1, .compute 0, .compute 1, .join 0, .join 1,
    .land, .land]

theorem concurrent_serial_inTurn :
    ∃ s, runStore [] inTurn = some s ∧ ∃ os : List (Op Unit), os.Perm (s.calls.map (·.op)) ∧
      s.file.content = os.foldl perform [] := by
  have hfresh : Meets storeStep Fresh (ReadModifyWrite.State.start []) inTurn := by decide
  exact ⟨_, rfl, concurrent_serial hfresh rfl ⟨rfl, by decide⟩⟩

/-- Of two overlapping calls the first one's item is gone, and no order of the two explains it. -/
theorem overlapping_enqueue_lost :
    ∃ s, runStore [] overlapping = some s ∧ Quiescent s ∧
      (∀ item ∈ s.file.content, item.requestId ≠ "event:channel.inbound:1") ∧
      ∀ os : List (Op Unit), os.Perm (s.calls.map (·.op)) →
        s.file.content ≠ os.foldl perform [] := by
  refine ⟨_, rfl, ⟨rfl, by decide⟩, by decide, ?_⟩
  intro os hos
  rcases List.perm_pair.mp hos with rfl | rfl <;> decide

end Empyralis.Gateway.Outbox
