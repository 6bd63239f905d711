import Mathlib.Data.List.Basic

/-! A file that is read at any moment and rewritten whole, one write after another.

    Writers hand the full next content to a promise chain; each write on the chain replaces the
    content at once (a rename over the old file), in the order in which the writes joined. `latest`
    is what the file holds once every write that has joined has landed. -/

namespace Empyralis

structure SerializedFile (χ : Type*) where
  content : χ
  lane : List χ
  deriving DecidableEq

namespace SerializedFile

variable {χ : Type*}

/-- A write joins the chain. -/
def join (f : SerializedFile χ) (c : χ) : SerializedFile χ := { f with lane := f.lane ++ [c] }

/-- The write at the head of the chain lands. -/
def land (f : SerializedFile χ) : Option (SerializedFile χ) :=
  match f.lane with
  | [] => none
  | c :: rest => some ⟨c, rest⟩

/-- The write at the head of the chain is rejected and leaves the file as it was. -/
def drop (f : SerializedFile χ) : Option (SerializedFile χ) :=
  match f.lane with
  | [] => none
  | _ :: rest => some ⟨f.content, rest⟩

def latest (f : SerializedFile χ) : χ := f.lane.getLast?.getD f.content

variable {f g : SerializedFile χ} {c v : χ}

@[simp] theorem content_join : (f.join c).content = f.content := rfl

@[simp] theorem latest_join : (f.join c).latest = c := by
  simp [latest, join]

theorem mem_join : v ∈ (f.join c).lane ↔ v ∈ f.lane ∨ v = c := by
  simp [join]

theorem latest_idle (h : f.lane = []) : f.latest = f.content := by
  simp [latest, h]

/-- Where the writes of the chain go up, nothing is above the newest content. -/
theorem le_latest {R : χ → χ → Prop} (hrefl : ∀ a, R a a)
    (h : (f.content :: f.lane).Pairwise R) : ∀ v ∈ f.content :: f.lane, R v f.latest := by
  intro v hv
  rcases List.eq_nil_or_concat f.lane with hl | ⟨l, b, hl⟩
  · rw [hl, List.mem_singleton] at hv
    rw [latest_idle hl, hv]
    exact hrefl _
  · rw [hl, List.concat_eq_append, ← List.cons_append] at h hv
    have hlast : f.latest = b := by simp [latest, hl]
    rcases List.mem_append.mp hv with hv | hv
    · exact hlast ▸ (List.pairwise_append.mp h).2.2 v hv b (List.mem_singleton.mpr rfl)
    · rw [List.mem_singleton.mp hv, hlast]
      exact hrefl _

theorem land_eq_some (h : f.land = some g) : f.lane = g.content :: g.lane := by
  unfold land at h
  split at h
  · exact absurd h (by simp)
  · rename_i c rest hl
    rw [Option.some.injEq] at h
    rw [hl, ← h]

theorem latest_land (h : f.land = some g) : g.latest = f.latest := by
  have hl := land_eq_some h
  cases hg : g.lane with
  | nil => simp [latest, hl, hg]
  | cons b rest => simp [latest, hl, hg, List.getLast?_cons]

end SerializedFile

end Empyralis
