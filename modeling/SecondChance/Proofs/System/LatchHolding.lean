import SecondChance.Proofs.System.StepOutcomes
import SecondChance.Proofs.System.SharedFiles

/-!
Whom a latch keeps away.

Whoever has a latch alone is its only holder, and nobody loses a latch through what others do.
Everybody who is inside has the latch of the frame, and whoever puts something into a frame has it
alone: a writer who is inside, and the task that loads the page. So while somebody is inside,
nothing comes into the frame except from a writer who is inside, and then there is nobody else.
-/

namespace SecondChance

namespace Latch

variable {l : Latch} {t u : TaskId} {mode : Mode}

/-- Whoever has the latch alone is its only holder. -/
def IsSafe (l : Latch) : Prop := ∀ e ∈ l.holders, e.2 = .exclusive → ∀ e' ∈ l.holders, e' = e

theorem isSafe_free : free.IsSafe := nofun

theorem isSafe_admitted {holders queue : List (TaskId × Mode)} {x : TaskId × Mode}
    (h : admits holders x.2 = true) : IsSafe ⟨holders ++ [x], queue⟩ := by
  intro e he alone e' he'
  obtain ⟨t, mode⟩ := x
  cases mode with
  | exclusive =>
    obtain rfl : holders = [] := List.isEmpty_iff.1 h
    rw [List.mem_singleton.1 he, List.mem_singleton.1 he']
  | shared =>
    have shared : ∀ y ∈ holders ++ [(t, Mode.shared)], y.2 = .shared := by
      simpa [admits, or_imp, forall_and] using h
    cases (shared e he).symm.trans alone

theorem isSafe_handOver {holders queue : List (TaskId × Mode)} (h : IsSafe ⟨holders, []⟩) :
    (handOver holders queue).IsSafe := by
  induction queue generalizing holders with
  | nil => exact h
  | cons x queue ih =>
    unfold handOver
    split
    · next admitted => exact ih (isSafe_admitted admitted)
    · exact h

theorem IsSafe.request (h : l.IsSafe) : (l.request t mode).IsSafe := by
  unfold Latch.request
  split
  · next hq =>
    obtain ⟨-, admitted⟩ := Bool.and_eq_true_iff.1 hq
    exact isSafe_admitted admitted
  · exact h

theorem IsSafe.leave (h : l.IsSafe) : (l.leave t).IsSafe := by
  refine isSafe_handOver fun e he alone e' he' => ?_
  exact h e (List.mem_of_mem_filter he) alone e' (List.mem_of_mem_filter he')

theorem mem_holders_handOver {holders queue : List (TaskId × Mode)} {e : TaskId × Mode}
    (he : e ∈ holders) : e ∈ (handOver holders queue).holders := by
  induction queue generalizing holders with
  | nil => exact he
  | cons x queue ih =>
    unfold handOver
    split
    · exact ih (List.mem_append_left _ he)
    · exact he

theorem isHeldBy_request (h : l.isHeldBy u = true) : (l.request t mode).isHeldBy u = true := by
  obtain ⟨m, hm⟩ := isHeldBy_iff.1 h
  refine isHeldBy_iff.2 ⟨m, ?_⟩
  unfold Latch.request
  split
  · exact List.mem_append_left _ hm
  · exact hm

theorem isHeldBy_leave (h : l.isHeldBy u = true) (hu : u ≠ t) :
    (l.leave t).isHeldBy u = true := by
  obtain ⟨m, hm⟩ := isHeldBy_iff.1 h
  refine isHeldBy_iff.2 ⟨m, mem_holders_handOver (List.mem_filter.2 ⟨hm, ?_⟩)⟩
  simpa using hu

end Latch

namespace Pool

variable {p p' : Pool} {t u : TaskId} {i j : FrameNo} {mode : Latch.Mode}

theorem latch_request_cases (p : Pool) (i : FrameNo) (t : TaskId) (mode : Latch.Mode)
    (j : FrameNo) : (p.request i t mode).latch j = p.latch j ∨
      (p.request i t mode).latch j = (p.latch j).request t mode := by
  unfold latch request
  rw [Array.getElem?_modify]
  split
  · cases p.latches[j]? with
    | none => exact .inl rfl
    | some => exact .inr rfl
  · exact .inl rfl

/-- Whoever has a latch of the pool alone is its only holder. -/
def IsSafe (p : Pool) : Prop := ∀ i, (p.latch i).IsSafe

theorem isSafe_new (n : Nat) : (Pool.new n).IsSafe := by
  intro i
  unfold latch Pool.new
  rw [Array.getElem?_replicate]
  split <;> exact Latch.isSafe_free

theorem IsSafe.congr (h : p.IsSafe) (hp : p'.latches = p.latches) : p'.IsSafe := by
  intro i
  rw [latch_congr hp]
  exact h i

theorem IsSafe.request (h : p.IsSafe) : (p.request i t mode).IsSafe := by
  intro j
  rcases p.latch_request_cases i t mode j with he | he <;> rw [he]
  · exact h j
  · exact (h j).request

theorem IsSafe.leave (h : p.IsSafe) : (p.leave i t).IsSafe := by
  intro j
  rw [latch_leave]
  split
  · exact (h j).leave
  · exact h j

theorem isHeldBy_request (h : (p.latch j).isHeldBy u = true) :
    ((p.request i t mode).latch j).isHeldBy u = true := by
  rcases p.latch_request_cases i t mode j with he | he <;> rw [he]
  · exact h
  · exact Latch.isHeldBy_request h

theorem isHeldBy_leave (h : (p.latch j).isHeldBy u = true) (hu : u ≠ t) :
    ((p.leave i t).latch j).isHeldBy u = true := by
  rw [latch_leave]
  split
  · exact Latch.isHeldBy_leave h hu
  · exact h

end Pool

namespace Paces

variable {p p' : Pool} {t u : TaskId} {old new : Option Task} {j : FrameNo}

theorem isSafe (paces : Paces p p' t old new) (h : p.IsSafe) : p'.IsSafe := by
  cases paces with
  | goesOn hx hl hp => exact h.congr hp
  | asks hl hl' hp => exact h.request.congr hp
  | leaves hx hl hl' hp => exact h.leave.congr hp
  | settles hx hl' hp => exact h.leave.congr hp

theorem isHeldBy (paces : Paces p p' t old new) (h : (p.latch j).isHeldBy u = true) (hu : u ≠ t) :
    (p'.latch j).isHeldBy u = true := by
  cases paces with
  | goesOn hx hl hp => rwa [Pool.latch_congr hp]
  | asks hl hl' hp =>
    rw [Pool.latch_congr hp]
    exact Pool.isHeldBy_request h
  | leaves hx hl hl' hp =>
    rw [Pool.latch_congr hp]
    exact Pool.isHeldBy_leave h hu
  | settles hx hl' hp =>
    rw [Pool.latch_congr hp]
    exact Pool.isHeldBy_leave h hu

end Paces

namespace System

variable {s : System} {m : Move} {t u : TaskId} {k : HandleNo} {stay stay' : Stay}
  {purpose purpose' : Access}

/-- Whoever is inside after a move was so before and has not had a turn, or has had the latch and
has found the page. -/
theorem inside_after (hn : 0 < s.pool.ledger.size) (hp : s.Permits m)
    (ht : (s.after m).tasks.find? t = some (.access k stay purpose .inside)) :
    (m.turn? ≠ some t ∧ s.tasks.find? t = some (.access k stay purpose .inside)) ∨
      ∃ fault, m = .resume t fault ∧
        s.tasks.find? t = some (.access k stay purpose .latching) ∧
        s.pool.ledger.stillLoading stay = .ok false := by
  rcases task_after hn hp ht with before | ⟨op, -, hop⟩ | ⟨fault, old, rfl, before, course⟩
  · exact .inl before
  · cases op <;> cases hop
  · cases course with
    | entered hl => exact .inr ⟨fault, rfl, before, hl⟩
    | latching hs => exact (hs rfl).elim

/-- Whoever has a latch alone is its only holder, and whoever is inside a page has the latch of its
frame. -/
structure Guarded (s : System) : Prop where
  safe : s.pool.IsSafe
  inside {t : TaskId} {k : HandleNo} {stay : Stay} {purpose : Access}
    (ht : s.tasks.find? t = some (.access k stay purpose .inside)) :
    (s.pool.latch stay.frame).isHeldBy t = true

theorem Guarded.new (n : Nat) (c : Catalog) : (System.new n c).Guarded where
  safe := Pool.isSafe_new n
  inside ht := nomatch ht

theorem isHeldBy_of_isReady {i : FrameNo} {mode : Latch.Mode} (ready : s.isReady t = true)
    (hl : s.latchOf t = some (i, mode)) : (s.pool.latch i).isHeldBy t = true := by
  obtain ⟨task, ht, hr⟩ := isReady_iff.1 ready
  rw [latchOf, ht, Option.bind_some] at hl
  simpa [Task.isReady, hl, Task.ticket?_of_latch? hl] using hr

theorem Guarded.move (h : s.Guarded) (hn : 0 < s.pool.ledger.size) (hp : s.Permits m) :
    (s.after m).Guarded := by
  have pace := pace_after hn hp
  refine ⟨?_, fun {t k stay purpose} ht => ?_⟩
  · generalize m.turn? = turn at pace
    cases pace with
    | still _ hl => exact h.safe.congr hl
    | turn _ paces => exact paces.isSafe h.safe
  · rcases inside_after hn hp ht with ⟨turn, before⟩ | ⟨fault, rfl, before, hl⟩
    · have held := h.inside before
      generalize m.turn? = turned at pace turn
      cases pace with
      | still _ hl => rwa [Pool.latch_congr hl]
      | turn _ paces => exact paces.isHeldBy held fun hu => turn (congrArg some hu.symm)
    · -- Whoever has just come in keeps the latch that was needed for that.
      have claimed : s.latchOf t = some (stay.frame, purpose.mode) := by rw [latchOf, before]; rfl
      have held := isHeldBy_of_isReady hp claimed
      have latches : (s.after (.resume t fault)).pool.latches = s.pool.latches := by
        simp only [after, resume_fst before, pool_turnTo, advance, enter, hl]
        cases purpose <;> rfl
      rwa [Pool.latch_congr latches]

section Alone

variable (h : s.Guarded) (ha : s.Attended)
include h ha

theorem Guarded.alone {i : FrameNo} (hl : s.latchOf t = some (i, .exclusive))
    (held : (s.pool.latch i).isHeldBy t = true) (held' : (s.pool.latch i).isHeldBy u = true) :
    u = t := by
  obtain ⟨mode, hm⟩ := Latch.isHeldBy_iff.1 held
  obtain ⟨mode', hm'⟩ := Latch.isHeldBy_iff.1 held'
  have claimed := ha.queues.mem_entries.1 (List.mem_append_left _ hm)
  obtain rfl : mode = .exclusive := by simpa using claimed.symm.trans hl
  exact congrArg Prod.fst (h.safe i _ hm rfl _ hm')

theorem Guarded.ne_of_load (hx : s.transferOf t = some ⟨.load, stay⟩) (ready : s.isReady t = true)
    (hu : s.tasks.find? u = some (.access k stay' purpose .inside)) : stay'.frame ≠ stay.frame := by
  intro hf
  have hl : s.latchOf t = some (stay.frame, .exclusive) := latchOf_of_transferOf hx
  have held := h.inside hu
  rw [hf] at held
  obtain rfl := h.alone ha hl (isHeldBy_of_isReady ready hl) held
  rw [transferOf_eq hu] at hx
  cases hx

/-- A writer who is inside is alone there. -/
theorem Guarded.writer_alone {e : Page → Page}
    (ht : s.tasks.find? t = some (.access k stay (.write e) .inside)) {k' : HandleNo}
    (hu : s.tasks.find? u = some (.access k' stay' purpose' .inside))
    (hf : stay'.frame = stay.frame) : u = t := by
  have hl : s.latchOf t = some (stay.frame, .exclusive) := by rw [latchOf, ht]; rfl
  have held := h.inside hu
  rw [hf] at held
  exact h.alone ha hl (h.inside ht) held

end Alone

end System

namespace System

/-- The invariants that hold in every state, no matter who else uses the files or gives back pins by
page. -/
structure Sturdy (s : System) : Prop where
  regular : s.Regular
  placed : s.Placed
  attended : s.Attended
  guarded : s.Guarded

theorem Sturdy.size_pos {s : System} (hs : s.Sturdy) : 0 < s.pool.ledger.size :=
  hs.regular.consistent.size_pos

theorem Sturdy.stayOf_eq {s : System} (hs : s.Sturdy) {t : TaskId} {k : HandleNo} {stay : Stay}
    {purpose : Access} {stage : AccessStage} {o : Occupant}
    (ht : s.tasks.find? t = some (.access k stay purpose stage))
    (hat : (s.pool.ledger.frame stay.frame).occupantAt stay.generation = some o) :
    s.pool.ledger.stayOf stay.frame o = stay := by
  obtain ⟨d, hh⟩ := hs.regular.orderly.borrowed ht
  obtain ⟨hf, hp⟩ := (hs.placed.lent hh).2 o hat
  rw [Ledger.stayOf, hf, hp, ← Ledger.generation, (Ledger.occupantAt_frame.1 hat).1]

end System

namespace ReachesShared

variable {allowed : Move → Prop} {n : Nat} (hn : 0 < n) {c : Catalog} {h : History} {s : System}
  (run : ReachesShared allowed (.new n c) h s)
include hn run

theorem guarded : s.Guarded := by
  induction run with
  | start => exact .new n c
  | move run possible _ ih => exact ih.move (run.regular hn).consistent.size_pos possible
  | others _ _ ih => exact ⟨ih.safe, ih.inside⟩

theorem sturdy (hd : c.Distinct) : s.Sturdy where
  regular := run.regular hn
  placed := run.placed hn hd
  attended := run.attended hn
  guarded := run.guarded hn

end ReachesShared

end SecondChance
