import Mathlib.Logic.Function.Basic
import SecondChance.Pool.Basic

/-!
Who holds a latch and who waits for it.

Whoever has asked for a latch is among its entries, as a holder or in the queue, until they leave.
Nobody waits without a reason: whoever is first in the queue cannot share the latch with its
holders, so a latch that somebody waits for is held by somebody.

`Pool.Queues` says this of all latches of a pool at once. `claim` tells which latch each task has
asked for, and the entries of the latches are exactly these.
-/

namespace SecondChance

namespace Latch

variable {l : Latch} {t : TaskId} {mode : Mode} {e : TaskId × Mode}

/-- Everybody who has asked for the latch and has not left, in the order in which they came. -/
def entries (l : Latch) : List (TaskId × Mode) := l.holders ++ l.queue

/-- Whoever is first in the queue cannot hold the latch yet. -/
def IsPrompt (l : Latch) : Prop :=
  ∀ first rest, l.queue = first :: rest → admits l.holders first.2 = false

@[simp] theorem entries_free : free.entries = [] := rfl

@[simp] theorem leave_free (t : TaskId) : free.leave t = free := rfl

theorem mem_entries_request :
    e ∈ (l.request t mode).entries ↔ e ∈ l.entries ∨ e = (t, mode) := by
  unfold request entries
  split
  · next hq =>
    obtain ⟨hq, -⟩ : l.queue = [] ∧ _ := by simpa using hq
    simp [hq]
  · simp [or_assoc]

theorem entries_leave (l : Latch) (t : TaskId) :
    (l.leave t).entries = l.entries.filter (·.1 ≠ t) :=
  (holders_append_queue_handOver ..).trans (List.filter_append ..).symm

theorem mem_entries_leave : e ∈ (l.leave t).entries ↔ e ∈ l.entries ∧ e.1 ≠ t := by
  rw [entries_leave, List.mem_filter, decide_eq_true_iff]

theorem isPrompt_free : free.IsPrompt := nofun

theorem IsPrompt.request (h : l.IsPrompt) : (l.request t mode).IsPrompt := by
  unfold Latch.request
  split
  · next hq =>
    obtain ⟨hq, -⟩ : l.queue = [] ∧ _ := by simpa using hq
    intro first rest hfirst
    exact nomatch hq.symm.trans hfirst
  · next hq =>
    intro first rest hfirst
    cases hl : l.queue with
    | nil =>
      -- The newcomer is first, and has been refused.
      have refused : admits l.holders mode = false := by simpa [hl] using hq
      obtain ⟨rfl, -⟩ : (t, mode) = first ∧ _ := by simpa [hl] using hfirst
      exact refused
    | cons x others =>
      obtain ⟨rfl, -⟩ : x = first ∧ _ := by simpa [hl] using hfirst
      exact h x others hl

theorem isPrompt_leave (l : Latch) (t : TaskId) : (l.leave t).IsPrompt :=
  fun _ _ hfirst => not_admits_of_queue_handOver hfirst

theorem isHeldBy_iff : l.isHeldBy t = true ↔ ∃ mode, (t, mode) ∈ l.holders := by
  simp [isHeldBy]

theorem mem_entries_of_isHeldBy (h : l.isHeldBy t = true) : ∃ mode, (t, mode) ∈ l.entries := by
  obtain ⟨mode, hm⟩ := isHeldBy_iff.1 h
  exact ⟨mode, List.mem_append_left _ hm⟩

/-- A latch that somebody has asked for is held by somebody. -/
theorem IsPrompt.exists_isHeldBy (h : l.IsPrompt) (he : e ∈ l.entries) :
    ∃ u, l.isHeldBy u = true := by
  cases hl : l.holders with
  | cons x others => exact ⟨x.1, isHeldBy_iff.2 ⟨x.2, by simp [hl]⟩⟩
  | nil =>
    cases hq : l.queue with
    | nil => simp [entries, hl, hq] at he
    | cons first rest =>
      -- Everybody is admitted to a latch that nobody holds.
      have refused := h first rest hq
      rw [hl] at refused
      cases hm : first.2 <;> simp [hm, admits] at refused

end Latch

namespace Pool

variable {p p' : Pool} {t : TaskId} {i j : FrameNo} {mode : Latch.Mode}

theorem latch_request (hi : i < p.latches.size) (t : TaskId) (mode : Latch.Mode) (j : FrameNo) :
    (p.request i t mode).latch j = if i = j then (p.latch j).request t mode else p.latch j := by
  unfold latch request
  rw [Array.getElem?_modify]
  split
  · next h =>
    subst h
    simp [hi]
  · rfl

theorem latch_leave (p : Pool) (i : FrameNo) (t : TaskId) (j : FrameNo) :
    (p.leave i t).latch j = if i = j then (p.latch j).leave t else p.latch j := by
  unfold latch leave
  rw [Array.getElem?_modify]
  split
  · cases p.latches[j]? <;> simp
  · rfl

theorem latch_congr (h : p'.latches = p.latches) (j : FrameNo) : p'.latch j = p.latch j := by
  rw [latch, h, latch]

/-- The latches of a pool have the tasks for entries that have asked for them, and serve everybody
as soon as they can. -/
structure Queues (p : Pool) (claim : TaskId → Option (FrameNo × Latch.Mode)) : Prop where
  prompt (i : FrameNo) : (p.latch i).IsPrompt
  mem_entries {i : FrameNo} {t : TaskId} {mode : Latch.Mode} :
    (t, mode) ∈ (p.latch i).entries ↔ claim t = some (i, mode)

namespace Queues

variable {claim : TaskId → Option (FrameNo × Latch.Mode)}

theorem new (n : Nat) : (Pool.new n).Queues fun _ => none := by
  have empty (i : FrameNo) : (Pool.new n).latch i = .free := by
    unfold latch Pool.new
    rw [Array.getElem?_replicate]
    split <;> rfl
  constructor
  case prompt =>
    intro i
    rw [empty]
    exact Latch.isPrompt_free
  case mem_entries =>
    intro i t mode
    rw [empty]
    simp

theorem congr (h : p.Queues claim) (hp : p'.latches = p.latches) : p'.Queues claim := by
  constructor
  case prompt =>
    intro i
    rw [latch_congr hp]
    exact h.prompt i
  case mem_entries =>
    intro i t mode
    rw [latch_congr hp]
    exact h.mem_entries

theorem request (h : p.Queues claim) (ht : claim t = none) (hi : i < p.latches.size)
    (mode : Latch.Mode) :
    (p.request i t mode).Queues (Function.update claim t (some (i, mode))) := by
  constructor
  case prompt =>
    intro j
    rw [latch_request hi]
    split
    · exact (h.prompt j).request
    · exact h.prompt j
  case mem_entries =>
    intro j u m
    have before : (u, m) ∈ (p.latch j).entries ↔ claim u = some (j, m) := h.mem_entries
    rw [latch_request hi]
    by_cases hu : u = t
    · subst hu
      -- The task was nowhere before, so it is where it has asked now.
      rw [Function.update_self]
      split
      · next hj => simp [Latch.mem_entries_request, before, ht, hj, eq_comm]
      · next hj => simp [before, ht, hj]
    · rw [Function.update_of_ne hu]
      split
      · simp [Latch.mem_entries_request, before, hu]
      · exact before

theorem leave (h : p.Queues claim) (ht : claim t = some (i, mode)) :
    (p.leave i t).Queues (Function.update claim t none) := by
  constructor
  case prompt =>
    intro j
    rw [latch_leave]
    split
    · exact Latch.isPrompt_leave _ t
    · exact h.prompt j
  case mem_entries =>
    intro j u m
    have before : (u, m) ∈ (p.latch j).entries ↔ claim u = some (j, m) := h.mem_entries
    rw [latch_leave]
    by_cases hu : u = t
    · subst hu
      rw [Function.update_self]
      split
      · simp [Latch.mem_entries_leave]
      · next hj => simp [before, ht, hj]
    · rw [Function.update_of_ne hu]
      split
      · simp [Latch.mem_entries_leave, before, hu]
      · exact before

end Queues

end Pool

end SecondChance
