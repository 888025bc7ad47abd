import SecondChance.Proofs.Latches
import SecondChance.Proofs.System.Regular
import SecondChance.Proofs.System.TaskTurns

/-!
What is waited for.

A task that cannot go on waits for a transfer to be settled or for a latch. Neither kind of waiting
is forgotten: the latches have for entries exactly the tasks that have asked for them, whatever
becomes of these tasks, and whoever ends a transfer, in whatever way, calls all tickets of the
frame. So a ticket that has not been called is for a transfer that some task has under way.
-/

namespace SecondChance

theorem Pool.settledAt_congr {p p' : Pool} (h : p'.settled = p.settled) (j : FrameNo) :
    p'.settledAt j = p.settledAt j := by
  rw [settledAt, h, settledAt]

theorem Pool.settledAt_of_modify {p p' : Pool} {i : FrameNo} (hi : i < p.settled.size)
    (h : p'.settled = p.settled.modify i (· + 1)) (j : FrameNo) :
    p'.settledAt j = if i = j then p.settledAt j + 1 else p.settledAt j := by
  rw [settledAt, h, Array.getElem?_modify, settledAt]
  split
  · next hj =>
    subst hj
    simp [hi]
  · rfl

theorem Task.transfer?_of_latch? {task : Option Task} (h : task.bind (·.latch?) = none) :
    task.bind (·.transfer?) = none := by
  cases task with
  | none => rfl
  | some task =>
    cases hx : task.transfer? with
    | none => exact hx
    | some x => cases h.symm.trans (latch?_of_transfer? hx)

namespace Paces

variable {p p' : Pool} {t : TaskId} {old new : Option Task} (paces : Paces p p' t old new)
include paces

theorem size_latches : p'.latches.size = p.latches.size := by
  cases paces with
  | goesOn hx hl hp => rw [hp]
  | asks hl hl' hp => rw [hp, Pool.request, Array.size_modify]
  | leaves hx hl hl' hp => rw [hp, Pool.leave, Array.size_modify]
  | settles hx hl' hp => rw [hp, Pool.leave, Array.size_modify]

theorem size_settled : p'.settled.size = p.settled.size := by
  cases paces with
  | goesOn hx hl hp hset | asks hl hl' hp hset | leaves hx hl hl' hp hset => rw [hset]
  | settles hx hl' hp hset => rw [hset, Array.size_modify]

theorem waits : p'.Waits new := by
  cases paces with
  | goesOn hx hl hp hset drawn => exact drawn
  | leaves hx hl hl' hp hset drawn => exact drawn
  | settles hx hl' hp hset hw => exact System.waits_of_none hw
  | asks hl hl' =>
    obtain ⟨task, rfl, hl'⟩ := Option.bind_eq_some_iff.1 hl'
    exact System.waits_of_none (Task.ticket?_of_latch? hl')

theorem settledAt_cases
    (within : ∀ x, old.bind (·.transfer?) = some x → x.stay.frame < p.settled.size) (i : FrameNo) :
    p.settledAt i < p'.settledAt i ∨ p'.settledAt i = p.settledAt i ∧
      ∀ x, old.bind (·.transfer?) = some x → x.stay.frame ≠ i := by
  have quiet (hx : old.bind (·.transfer?) = none) (hset : p'.settled = p.settled) :
      p'.settledAt i = p.settledAt i ∧
        ∀ x, old.bind (·.transfer?) = some x → x.stay.frame ≠ i := by
    refine ⟨Pool.settledAt_congr hset i, fun x hx' => ?_⟩
    cases hx.symm.trans hx'
  cases paces with
  | goesOn hx hl hp hset => exact .inr (quiet hx hset)
  | leaves hx hl hl' hp hset => exact .inr (quiet hx hset)
  | asks hl hl' hp hset => exact .inr (quiet (Task.transfer?_of_latch? hl) hset)
  | @settles x hx hl' hp hset =>
    rw [Pool.settledAt_of_modify (within x hx) hset]
    by_cases hi : x.stay.frame = i
    · rw [if_pos hi]
      exact .inl (Nat.lt_succ_self _)
    · rw [if_neg hi]
      refine .inr ⟨rfl, fun y hy => ?_⟩
      obtain rfl := Option.some.inj (hx.symm.trans hy)
      exact hi

end Paces

theorem Ledger.Escorted.exists_of_ne_idle {l : Ledger} {carry : TaskId → Option Transfer}
    (h : l.Escorted carry) {i : FrameNo} {o : Occupant} (ho : l.occupant? i = some o)
    (hio : o.io ≠ .idle) : ∃ t x, carry t = some x ∧ x.stay.frame = i := by
  cases hk : o.io with
  | idle => exact (hio hk).elim
  | busy kind =>
    obtain ⟨t, ht⟩ := h.carried ho hk
    exact ⟨t, _, ht, rfl⟩

namespace System

variable {s s' : System} {t u : TaskId} {i : FrameNo} {mode : Latch.Mode} {x : Transfer}

/-- The latch that a task holds or waits for. -/
def latchOf (s : System) (t : TaskId) : Option (FrameNo × Latch.Mode) :=
  (s.tasks.find? t).bind (·.latch?)

/-- The ticket that has to be called before a task can go on. -/
def ticketOf (s : System) (t : TaskId) : Option Ticket := (s.tasks.find? t).bind (·.ticket?)

theorem latchOf_of_transferOf (hx : s.transferOf t = some x) :
    s.latchOf t = some (x.stay.frame, x.mode) := by
  obtain ⟨task, ht, hx⟩ := Option.bind_eq_some_iff.1 hx
  exact Option.bind_eq_some_iff.2 ⟨task, ht, Task.latch?_of_transfer? hx⟩

theorem ticketOf_of_latchOf {y : FrameNo × Latch.Mode} (hl : s.latchOf t = some y) :
    s.ticketOf t = none := by
  obtain ⟨task, ht, hl⟩ := Option.bind_eq_some_iff.1 hl
  rw [ticketOf, ht]
  exact Task.ticket?_of_latch? hl

theorem transferOf_of_ticketOf {w : Ticket} (hw : s.ticketOf t = some w) :
    s.transferOf t = none := by
  refine Option.eq_none_iff_forall_ne_some.2 fun x hx => ?_
  exact nomatch hw.symm.trans (ticketOf_of_latchOf (latchOf_of_transferOf hx))

/-! ### Handles and frames -/

theorem Regular.frame_lt (hs : s.Regular) (hx : s.transferOf t = some x) :
    x.stay.frame < s.pool.ledger.size := by
  obtain ⟨o, -, -, ho, -⟩ := hs.seat hx
  exact Ledger.lt_size_of_occupant? ho

def LentWithin (s : System) : Prop :=
  ∀ h x, s.handles.find? h = some x → x.stay.frame < s.pool.ledger.size

theorem Act.lentWithin {ks : List Mark} (a : Act s ks s') (hs : s.Regular) (h : s.LentWithin) :
    s'.LentWithin := by
  intro j x hx
  rw [a.size]
  have old (hold : ∃ y, s.handles.find? j = some y ∧ y.stay = x.stay) :
      x.stay.frame < s.pool.ledger.size := by
    obtain ⟨y, hy, hst⟩ := hold
    rw [← hst]
    exact h j y hy
  cases a with
  | hit ht hk ho =>
    rcases of_find?_lendTo hx with hst | hold
    · rw [← hst]
      exact Ledger.lt_size_of_occupant? ho
    · exact old hold
  | loaded ht =>
    rcases of_find?_lendTo hx with hst | hold
    · rw [← hst]
      exact hs.frame_lt (transferOf_eq ht)
    · exact old hold
  | @enter _ _ _ purpose =>
    cases purpose with
    | read => exact h j x hx
    | write => exact old (of_find?_markDirty hx)
  | giveBack | detach => exact old (of_find?_detach hx)
  | markDirty => exact old (of_find?_markDirty hx)
  | _ => exact h j x hx

theorem Acts.lentWithin {ks : List Mark} (a : Acts s ks s') (hs : s.Regular)
    (h : s.LentWithin) : s'.LentWithin := by
  induction a with
  | done => exact h
  | more first _ ih => exact ih (first.regular hs) (first.lentWithin hs h)

theorem Regular.frame_lt_of_latchOf (hs : s.Regular) (h : s.LentWithin)
    (hl : s.latchOf t = some (i, mode)) : i < s.pool.ledger.size := by
  obtain ⟨task, ht, hl⟩ := Option.bind_eq_some_iff.1 hl
  have moved {y : Option Transfer} (hy : s.transferOf t = y)
      (he : (y.map fun x => (x.stay.frame, x.mode)) = some (i, mode)) :
      i < s.pool.ledger.size := by
    obtain ⟨x, hx, he⟩ := Option.map_eq_some_iff.1 he
    obtain ⟨rfl, -⟩ := Prod.mk.inj he
    exact hs.frame_lt (hy.trans hx)
  cases task with
  | access k stay purpose stage =>
    obtain ⟨d, hk⟩ := hs.orderly.borrowed ht
    have hi : stay.frame = i := by
      cases stage with
      | loading => cases hl
      | _ => exact congrArg Prod.fst (Option.some.inj hl)
    rw [← hi]
    exact h k _ hk
  | _ => exact moved (transferOf_eq ht) hl

/-! ### Turns -/

/-- The ticket has just been drawn, so the next settlement of its frame calls it, and some task has
a transfer of that frame under way. -/
structure Promises (s : System) (w : Ticket) : Prop where
  drawn : w = s.pool.ticket w.frame
  underWay : ∃ u x, s.transferOf u = some x ∧ x.stay.frame = w.frame

/-- Every ticket has been called or will be. -/
def Announced (s : System) : Prop :=
  ∀ t w, s.ticketOf t = some w → s.pool.isCalled w = false → s.Promises w

theorem Announced.seen_le (h : s.Announced) {w : Ticket} (hw : s.ticketOf t = some w) :
    w.seen ≤ s.pool.settledAt w.frame := by
  cases called : s.pool.isCalled w with
  | true =>
    simp only [Pool.isCalled, decide_eq_true_iff] at called
    omega
  | false =>
    exact Nat.le_of_eq (congrArg Ticket.seen (h t w hw called).drawn)

theorem Announced.kept (h : s.Announced) {w : Ticket} (hw : s.ticketOf t = some w)
    (uncalled : s'.pool.isCalled w = false)
    (count : s'.pool.settledAt w.frame = s.pool.settledAt w.frame)
    (goesOn : ∀ u x, s.transferOf u = some x → x.stay.frame = w.frame →
      s'.transferOf u = some x) : s'.Promises w := by
  have before : s.pool.isCalled w = false := by rwa [Pool.isCalled, ← count]
  obtain ⟨drawn, u, x, hx, hf⟩ := h t w hw before
  refine ⟨?_, u, x, goesOn u x hx hf, hf⟩
  rwa [Pool.ticket, count]

section Turn

variable (others : ∀ u, t ≠ u → s'.tasks.find? u = s.tasks.find? u)
include others

theorem queues_turn (paces : Paces s.pool s'.pool t (s.tasks.find? t) (s'.tasks.find? t))
    (h : s.pool.Queues s.latchOf)
    (within : ∀ i mode, s'.latchOf t = some (i, mode) → i < s.pool.latches.size) :
    s'.pool.Queues s'.latchOf := by
  have update : s'.latchOf = Function.update s.latchOf t (s'.latchOf t) := by
    ext u
    rw [Function.update_apply]
    split
    · next hu => rw [hu]
    · next hu => rw [latchOf, others u (Ne.symm hu), latchOf]
  cases paces with
  | goesOn hx hl hp =>
    have same : s'.latchOf = s.latchOf := by
      rw [update, show s'.latchOf t = s.latchOf t from hl, Function.update_eq_self]
    rw [same]
    exact h.congr hp
  | asks hl hl' hp =>
    rw [update, show s'.latchOf t = _ from hl']
    exact (h.request hl (within _ _ hl') _).congr hp
  | leaves hx hl hl' hp =>
    rw [update, show s'.latchOf t = none from hl']
    exact (h.leave hl).congr hp
  | settles hx hl' hp =>
    rw [update, show s'.latchOf t = none from hl']
    exact (h.leave (latchOf_of_transferOf hx)).congr hp

theorem announced_turn (paces : Paces s.pool s'.pool t (s.tasks.find? t) (s'.tasks.find? t))
    (h : s.Announced) (hs : s'.Regular)
    (within : ∀ x, s.transferOf t = some x → x.stay.frame < s.pool.settled.size) :
    s'.Announced := by
  intro u w hw uncalled
  by_cases hu : t = u
  · -- The ticket was drawn just now, for the transfer of a busy frame.
    subst hu
    obtain ⟨drawn, o, ho, hio⟩ := paces.waits w hw
    exact ⟨drawn, hs.escorted.exists_of_ne_idle ho hio⟩
  · have hold : s.ticketOf u = some w := by rwa [ticketOf, ← others u hu]
    rcases paces.settledAt_cases within w.frame with called | ⟨count, elsewhere⟩
    · have seen := h.seen_le hold
      simp only [Pool.isCalled, decide_eq_false_iff_not] at uncalled
      omega
    · -- What the ticket is for is not the transfer that has been ended.
      refine h.kept hold uncalled count fun v x hx hf => ?_
      have hv : t ≠ v := by
        rintro rfl
        exact elsewhere x hx hf
      rwa [transferOf, others v hv]

end Turn

/-- Every frame has its latch and its count of settlements, whoever has or wants a latch is among
the entries of that latch only, every latch serves the first in its queue as soon as it can, and
every ticket has been called or will be. -/
structure Attended (s : System) : Prop where
  latches : s.pool.latches.size = s.pool.ledger.size
  settled : s.pool.settled.size = s.pool.ledger.size
  lent : s.LentWithin
  queues : s.pool.Queues s.latchOf
  announced : s.Announced

theorem Attended.new (n : Nat) (c : Catalog) : (System.new n c).Attended where
  latches := Array.size_replicate.trans Array.size_replicate.symm
  settled := Array.size_replicate.trans Array.size_replicate.symm
  lent _ _ hx := nomatch hx
  queues := .new n
  announced _ _ hw := nomatch hw

/-- Every permitted move keeps a regular system attended. -/
theorem Attended.move (h : s.Attended) (hs : s.Regular) {m : Move} (possible : s.Permits m) :
    (s.after m).Attended := by
  have acts := acts_after hs.orderly hs.consistent.size_pos possible
  have hs' := acts.regular hs
  have lent := acts.lentWithin hs h.lent
  have size := acts.size
  have pace := pace_after hs.consistent.size_pos possible
  generalize s.after m = s', m.turn? = turn at *
  cases pace with
  | still ht hl hset =>
    have latchOf : s'.latchOf = s.latchOf := by simp [funext_iff, System.latchOf, ht]
    refine ⟨by rw [hl, size, h.latches], by rw [hset, size, h.settled], lent, ?_, ?_⟩
    · rw [latchOf]
      exact h.queues.congr hl
    · intro u w hw uncalled
      rw [ticketOf, ht] at hw
      refine h.announced.kept hw uncalled (Pool.settledAt_congr hset _) fun v x hx _ => ?_
      rwa [transferOf, ht]
  | turn others paces =>
    refine ⟨?_, ?_, lent, ?_, ?_⟩
    · rw [paces.size_latches, size, h.latches]
    · rw [paces.size_settled, size, h.settled]
    · refine queues_turn others paces h.queues fun i mode hl => ?_
      rw [h.latches, ← size]
      exact hs'.frame_lt_of_latchOf lent hl
    · refine announced_turn others paces h.announced hs' fun x hx => ?_
      rw [h.settled]
      exact hs.frame_lt hx

end System

theorem Reaches.attended {allowed : Move → Prop} {n : Nat} (hn : 0 < n) {c : Catalog} {s : System}
    {h : History} (run : Reaches allowed (.new n c) h s) : s.Attended := by
  induction run with
  | start => exact .new n c
  | move run possible _ ih => exact ih.move (run.regular hn) possible

end SecondChance
