import Mathlib.Logic.Relation
import SecondChance.Proofs.System.Waiting

/-!
Nobody waits in vain.

Tasks may wait for each other. Whoever waits for the end of a transfer waits for the task that has
it under way, and that task may wait for the latch of the frame; whoever waits for a latch waits for
those who hold it, and these wait for nothing any more. So a chain of tasks that wait for each other
is never longer than that, it never comes back to where it began, and at its end there is somebody
whom nothing in the pool keeps from going on.
-/

namespace SecondChance

namespace System

variable {s : System} {t u v w : TaskId} {i : FrameNo}

/-- Whether a task is in progress and cannot go on. -/
def IsBlocked (s : System) (t : TaskId) : Prop :=
  ∃ task, s.tasks.find? t = some task ∧ task.isReady s.pool t = false

/-- For whom a task waits: for the one that has a transfer under way, or for one that holds a
latch. -/
inductive WaitsFor (s : System) (t u : TaskId) : Prop
  | settling {w : Ticket} {x : Transfer} (hw : s.ticketOf t = some w)
      (uncalled : s.pool.isCalled w = false) (hx : s.transferOf u = some x)
      (hf : x.stay.frame = w.frame)
  | latch {i : FrameNo} {mode : Latch.Mode} (hl : s.latchOf t = some (i, mode))
      (waiting : (s.pool.latch i).isHeldBy t = false) (held : (s.pool.latch i).isHeldBy u = true)

def IsUsing (s : System) (t : TaskId) : Prop :=
  ∃ h stay purpose, s.tasks.find? t = some (.access h stay purpose .inside)

def IsCalling (s : System) (t : TaskId) : Prop :=
  s.isReady t = true ∧ ∃ task, s.tasks.find? t = some task ∧ task.call? ≠ none

def IsEntering (s : System) (t : TaskId) : Prop :=
  s.isReady t = true ∧ ∃ h stay purpose, s.tasks.find? t = some (.access h stay purpose .latching)

/-- Whether nothing in the pool keeps a task from going on. -/
def IsUnhindered (s : System) (t : TaskId) : Prop :=
  s.isReady t = true ∧ (s.IsUsing t ∨ s.IsCalling t ∨ s.IsEntering t)

/-- What a task can be blocked by: a ticket that has not been called, or a latch that it does not
have. -/
theorem isBlocked_iff : s.IsBlocked t ↔
    (∃ w, s.ticketOf t = some w ∧ s.pool.isCalled w = false) ∨
      ∃ i mode, s.latchOf t = some (i, mode) ∧ (s.pool.latch i).isHeldBy t = false := by
  unfold IsBlocked ticketOf latchOf
  cases s.tasks.find? t with
  | none => simp
  | some task =>
    rcases ht : task.ticket? with _ | w <;> rcases hl : task.latch? with _ | ⟨i, mode⟩ <;>
      simp [Task.isReady, ht, hl, -Bool.and_eq_false_imp, Bool.and_eq_false_iff]

theorem isReady_of_not_isBlocked {task : Task} (ht : s.tasks.find? t = some task)
    (hb : ¬ s.IsBlocked t) : s.isReady t = true := by
  refine isReady_iff.2 ⟨task, ht, ?_⟩
  cases ready : task.isReady s.pool t with
  | true => rfl
  | false => exact (hb ⟨task, ht, ready⟩).elim

theorem not_isBlocked_of_isReady (h : s.isReady t = true) : ¬ s.IsBlocked t := by
  rintro ⟨task, ht, blocked⟩
  obtain ⟨task', ht', ready⟩ := isReady_iff.1 h
  obtain rfl := Option.some.inj (ht.symm.trans ht')
  exact Bool.false_ne_true (blocked.symm.trans ready)

theorem WaitsFor.isBlocked (h : s.WaitsFor t u) : s.IsBlocked t := by
  cases h with
  | settling hw uncalled => exact isBlocked_iff.2 (.inl ⟨_, hw, uncalled⟩)
  | latch hl waiting => exact isBlocked_iff.2 (.inr ⟨_, _, hl, waiting⟩)

theorem isUnhindered_of_latchOf {y : FrameNo × Latch.Mode} (ready : s.isReady t = true)
    (hl : s.latchOf t = some y) : s.IsUnhindered t := by
  obtain ⟨task, ht, hl⟩ := Option.bind_eq_some_iff.1 hl
  refine ⟨ready, ?_⟩
  have moving (hl : (task.transfer?.map fun x => (x.stay.frame, x.mode)) = some y) :
      s.IsCalling t := by
    obtain ⟨x, hx, -⟩ := Option.map_eq_some_iff.1 hl
    exact ⟨ready, task, ht, by simp [Task.call?_of_transfer? hx]⟩
  cases task with
  | access h stay purpose stage =>
    cases stage with
    | latching => exact .inr (.inr ⟨ready, h, stay, purpose, ht⟩)
    | loading => cases hl
    | inside => exact .inl ⟨h, stay, purpose, ht⟩
  | _ => exact .inr (.inl (moving hl))

namespace Attended

variable (h : s.Attended)
include h

theorem isUnhindered_of_isHeldBy (held : (s.pool.latch i).isHeldBy t = true) :
    s.IsUnhindered t := by
  obtain ⟨mode, entry⟩ := Latch.mem_entries_of_isHeldBy held
  have hl : s.latchOf t = some (i, mode) := h.queues.mem_entries.1 entry
  obtain ⟨task, ht, -⟩ := Option.bind_eq_some_iff.1 hl
  refine isUnhindered_of_latchOf (isReady_of_not_isBlocked ht fun blocked => ?_) hl
  rcases isBlocked_iff.1 blocked with ⟨w, hw, -⟩ | ⟨j, m, hl', waiting⟩
  · exact nomatch hw.symm.trans (ticketOf_of_latchOf hl)
  · obtain ⟨rfl, -⟩ := Prod.mk.inj (Option.some.inj (hl.symm.trans hl'))
    exact Bool.false_ne_true (waiting.symm.trans held)

/-- Whoever is blocked waits for somebody. -/
theorem exists_waitsFor (blocked : s.IsBlocked t) : ∃ u, s.WaitsFor t u := by
  rcases isBlocked_iff.1 blocked with ⟨w, hw, uncalled⟩ | ⟨i, mode, hl, waiting⟩
  · obtain ⟨u, x, hx, hf⟩ := (h.announced t w hw uncalled).underWay
    exact ⟨u, .settling hw uncalled hx hf⟩
  · -- There is a queue for the latch, so it has a holder.
    have entry : (t, mode) ∈ (s.pool.latch i).entries := h.queues.mem_entries.2 hl
    obtain ⟨u, held⟩ := (h.queues.prompt i).exists_isHeldBy entry
    exact ⟨u, .latch hl waiting held⟩

/-- Nobody waits for a task that is further than one step away from going on. -/
theorem isUnhindered_or_isBlocked (hw : s.WaitsFor t u) :
    s.IsUnhindered u ∨ s.IsBlocked u ∧ ∀ v, s.WaitsFor u v → s.IsUnhindered v := by
  cases hw with
  | latch hl waiting held => exact .inl (h.isUnhindered_of_isHeldBy held)
  | settling hw uncalled hx hf =>
    by_cases blocked : s.IsBlocked u
    · refine .inr ⟨blocked, fun v hv => ?_⟩
      -- Whoever has a transfer under way does not wait for the end of another.
      cases hv with
      | settling hw' => exact nomatch hx.symm.trans (transferOf_of_ticketOf hw')
      | latch hl waiting held => exact h.isUnhindered_of_isHeldBy held
    · obtain ⟨task, ht, -⟩ := Option.bind_eq_some_iff.1 hx
      have ready := isReady_of_not_isBlocked ht blocked
      exact .inl (isUnhindered_of_latchOf ready (latchOf_of_transferOf hx))

theorem not_waitsFor_thrice (htu : s.WaitsFor t u) (huv : s.WaitsFor u v) :
    ¬ s.WaitsFor v w := by
  intro hvw
  rcases h.isUnhindered_or_isBlocked htu with free | ⟨-, next⟩
  · exact not_isBlocked_of_isReady free.1 huv.isBlocked
  · exact not_isBlocked_of_isReady (next v huv).1 hvw.isBlocked

/-- Nobody waits for itself, not even by way of others. -/
theorem not_transGen_waitsFor (t : TaskId) : ¬ Relation.TransGen s.WaitsFor t t := by
  -- One could go round for ever, but not even three steps are possible.
  have round {t : TaskId} (cycle : Relation.TransGen s.WaitsFor t t) :
      ∃ u, s.WaitsFor t u ∧ Relation.TransGen s.WaitsFor u u := by
    obtain ⟨u, first, rest⟩ := Relation.TransGen.head'_iff.1 cycle
    exact ⟨u, first, .tail' rest first⟩
  intro cycle
  obtain ⟨u, htu, cycle⟩ := round cycle
  obtain ⟨v, huv, cycle⟩ := round cycle
  obtain ⟨w, hvw, -⟩ := round cycle
  exact h.not_waitsFor_thrice htu huv hvw

/-- Behind everybody who is blocked there is somebody who is not. -/
theorem exists_isUnhindered (blocked : s.IsBlocked t) :
    ∃ u, s.IsUnhindered u ∧ (s.WaitsFor t u ∨ ∃ v, s.WaitsFor t v ∧ s.WaitsFor v u) := by
  obtain ⟨v, hv⟩ := h.exists_waitsFor blocked
  rcases h.isUnhindered_or_isBlocked hv with free | ⟨blocked', next⟩
  · exact ⟨v, free, .inl hv⟩
  · obtain ⟨u, hu⟩ := h.exists_waitsFor blocked'
    exact ⟨u, next u hu, .inr ⟨v, hv, hu⟩⟩

end Attended

end System

/-- In every state of every run a ticket that has not been called is for a frame that another task
is moving a page into or out of. The tasks that are blocked are those that wait for somebody.
Whoever is waited for can go on, or is blocked by somebody who can: by a borrower who uses a page or
is about to, or by a call to a page file. Nobody waits for itself. So while no page file is called
and nobody uses a page, behind everybody who is blocked there is a borrower who has got the latch
and can go on. -/
theorem waiting_ends {n : Nat} (hn : 0 < n) (c : Catalog) {h : History} {s : System}
    (run : Reaches (fun _ => True) (.new n c) h s) :
    (∀ t w, s.ticketOf t = some w → s.pool.isCalled w = false →
      ∃ u x, u ≠ t ∧ s.transferOf u = some x ∧ x.stay.frame = w.frame) ∧
    (∀ t, s.IsBlocked t ↔ ∃ u, s.WaitsFor t u) ∧
    (∀ t u, s.WaitsFor t u →
      s.IsUnhindered u ∨ s.IsBlocked u ∧ ∀ v, s.WaitsFor u v → s.IsUnhindered v) ∧
    (∀ t, ¬ Relation.TransGen s.WaitsFor t t) ∧
    ∀ t, s.IsBlocked t → (∀ u, ¬ s.IsCalling u) → (∀ u, ¬ s.IsUsing u) →
      ∃ u, s.IsEntering u ∧ (s.WaitsFor t u ∨ ∃ v, s.WaitsFor t v ∧ s.WaitsFor v u) := by
  have attended := run.attended hn
  refine ⟨fun t w hw uncalled => ?_,
    fun t => ⟨attended.exists_waitsFor, fun ⟨u, hu⟩ => hu.isBlocked⟩,
    fun t u hu => attended.isUnhindered_or_isBlocked hu, attended.not_transGen_waitsFor,
    fun t blocked calls uses => ?_⟩
  · obtain ⟨u, x, hx, hf⟩ := (attended.announced t w hw uncalled).underWay
    refine ⟨u, x, ?_, hx, hf⟩
    rintro rfl
    exact nomatch hx.symm.trans (System.transferOf_of_ticketOf hw)
  · obtain ⟨u, ⟨-, inUse | calling | entering⟩, hops⟩ := attended.exists_isUnhindered blocked
    · exact (uses u inUse).elim
    · exact (calls u calling).elim
    · exact ⟨u, entering, hops⟩

/-- Somebody reads a page whose pin is taken away. The page leaves the frame for another, which
cannot be read in before the reader is done, and loses its pin as well. Whoever asks for a third
page has to wait for that. -/
def smallQueue : History × System := System.small.play
  [.begin 0 (.allocate 0 0), .resume 0 none, .resume 0 none, .resume 0 none,
    .begin 1 (.access 0 ⟨0, 0, 0, 1⟩ .read), .resume 1 none, .unpin 0 0 false,
    .begin 2 (.fetch 0 1 1), .resume 2 none, .unpin 0 1 false,
    .begin 3 (.fetch 0 2 2), .resume 3 none]

theorem waiting_ends_smallQueue : Reaches (fun _ => True) .small smallQueue.1 smallQueue.2 ∧
    smallQueue.2.WaitsFor 3 2 ∧ smallQueue.2.WaitsFor 2 1 ∧ smallQueue.2.IsUnhindered 1 := by
  have run : Reaches (fun _ => True) .small smallQueue.1 smallQueue.2 := by
    refine .play ⟨⟨rfl, Nat.zero_lt_one, rfl, nofun⟩, rfl, rfl, rfl, ⟨rfl, ⟨false, rfl⟩, nofun⟩, rfl,
      Nat.zero_lt_one, ⟨rfl, Nat.zero_lt_one, rfl, by decide⟩, rfl, Nat.zero_lt_one,
      ⟨rfl, Nat.zero_lt_one, rfl, by decide⟩, rfl, trivial⟩ ?_
    exact fun _ _ => trivial
  have third : smallQueue.2.WaitsFor 3 2 := .settling rfl rfl rfl rfl
  have second : smallQueue.2.WaitsFor 2 1 := .latch rfl rfl rfl
  obtain ⟨-, -, reached, -, -⟩ := waiting_ends Nat.zero_lt_one _ run
  rcases reached 3 2 third with ⟨ready, -⟩ | ⟨-, next⟩
  · exact (Bool.false_ne_true ready).elim
  · exact ⟨run, third, second, next 1 second⟩

end SecondChance
