/-!
Latches: locks for readers and writers that serve everyone in the order in which they came.

A latch knows who holds it and who waits for it. Nobody overtakes: a reader that comes while a
writer waits queues up behind the writer. When somebody leaves, holder or not, the latch goes at
once to whoever is first in the queue, and to the readers right behind a first reader.
-/

namespace SecondChance

abbrev TaskId := Nat

namespace Latch

/-- How a latch is held: together with other readers, or alone. -/
inductive Mode
  | shared
  | exclusive
  deriving DecidableEq

end Latch

/-- A lock for readers and writers. -/
structure Latch where
  holders : List (TaskId × Latch.Mode)
  /-- Who waits, first come first. -/
  queue : List (TaskId × Latch.Mode)

namespace Latch

def free : Latch := ⟨[], []⟩

instance : Inhabited Latch := ⟨free⟩

/-- Whether one more may hold a latch together with its present holders. -/
def admits (holders : List (TaskId × Mode)) : Mode → Bool
  | .shared => holders.all (·.2 = .shared)
  | .exclusive => holders.isEmpty

/-- Hands the latch to those at the head of the queue, as far as they can hold it together. -/
def handOver : (holders queue : List (TaskId × Mode)) → Latch
  | holders, [] => ⟨holders, []⟩
  | holders, x :: queue =>
    if admits holders x.2 then handOver (holders ++ [x]) queue else ⟨holders, x :: queue⟩

/-- Asks for a latch, which is had at once if nobody waits and the holders allow it. -/
def request (l : Latch) (t : TaskId) (mode : Mode) : Latch :=
  if l.queue.isEmpty && admits l.holders mode then { l with holders := l.holders ++ [(t, mode)] }
  else { l with queue := l.queue ++ [(t, mode)] }

def leave (l : Latch) (t : TaskId) : Latch :=
  handOver (l.holders.filter (·.1 ≠ t)) (l.queue.filter (·.1 ≠ t))

def isHeldBy (l : Latch) (t : TaskId) : Bool := l.holders.any (·.1 = t)

theorem holders_append_queue_handOver (holders queue : List (TaskId × Mode)) :
    (handOver holders queue).holders ++ (handOver holders queue).queue = holders ++ queue := by
  induction queue generalizing holders with
  | nil => rfl
  | cons x queue ih =>
    unfold handOver
    split
    · rw [ih, List.append_assoc, List.singleton_append]
    · rfl

/-- After a hand-over, whoever is first in the queue cannot hold the latch yet. -/
theorem not_admits_of_queue_handOver {holders queue rest : List (TaskId × Mode)}
    {x : TaskId × Mode} (h : (handOver holders queue).queue = x :: rest) :
    admits (handOver holders queue).holders x.2 = false := by
  induction queue generalizing holders with
  | nil => cases h
  | cons y queue ih =>
    unfold handOver at h ⊢
    split at h
    · next hy =>
      rw [if_pos hy]
      exact ih h
    · next hy =>
      obtain ⟨rfl, rfl⟩ := List.cons.inj h
      rw [if_neg hy]
      simpa using hy

end Latch

end SecondChance
