import SecondChance.Proofs.System.Capacity
import SecondChance.Proofs.System.Durability
import SecondChance.Proofs.System.LoneOperations

/-!
What a flush of everything makes sure of.

A page that is dirty when a flush is asked for is in arrears until somebody writes it. It stays in
its frame meanwhile, and it is dirty all the time, except while it is being written back by a task
that has claimed it since; where that fails, it is dirty again. The flush goes from frame to frame,
waits where a page is being written back and writes what is dirty, so it cannot get past the page
before it has been written, by the flush itself or by somebody else.

It can, though, if the page is still being loaded. A page can be dirty even then, because a pin can
be given back by page as soon as the page is in the table, and a flush does not wait for loads.
`System.Overlooks` is what must not happen, and the run at the end shows what comes of it.
-/

namespace SecondChance

/-- Task `u` has begun the transfer in the history and has not had a turn since. -/
def History.Begun (u : TaskId) (x : Transfer) (h : History) : Prop :=
  ∃ recent s m earlier, h = recent ++ (s, m) :: earlier ∧ s.transferOf u = none ∧
    (s.after m).transferOf u = some x ∧ ∀ y ∈ recent, y.2.turn? ≠ some u

/-- The page of a stay has been written with success, in a write-back that has begun in the
history. -/
def History.Written (stay : Stay) (h : History) : Prop :=
  ∃ recent s m u earlier, h = recent ++ (s, m) :: earlier ∧ m.turn? = some u ∧
    s.ended? m = some (⟨.writeBack, stay⟩, true) ∧ History.Begun u ⟨.writeBack, stay⟩ earlier

/-- The task flushes everything, and is going to look at the frame. -/
def Task.looksAt (i : FrameNo) : Task → Bool
  | .flushAll j _ (.look _) => j = i
  | _ => false

section Histories

variable {s : System} {m : Move} {u : TaskId} {x : Transfer} {stay : Stay} {h : History}

theorem History.Begun.cons (begun : h.Begun u x) (turn : m.turn? ≠ some u) :
    History.Begun u x ((s, m) :: h) := by
  obtain ⟨recent, s₁, m₁, earlier, rfl, before, after, quiet⟩ := begun
  refine ⟨(s, m) :: recent, s₁, m₁, earlier, rfl, before, after, fun y hy => ?_⟩
  rcases List.mem_cons.1 hy with rfl | hy
  · exact turn
  · exact quiet y hy

theorem History.begun_now (before : s.transferOf u = none)
    (after : (s.after m).transferOf u = some x) : History.Begun u x ((s, m) :: h) :=
  ⟨[], s, m, h, rfl, before, after, nofun⟩

theorem History.Written.cons (written : h.Written stay) : History.Written stay ((s, m) :: h) := by
  obtain ⟨recent, s₁, m₁, u, earlier, rfl, rest⟩ := written
  exact ⟨(s, m) :: recent, s₁, m₁, u, earlier, rfl, rest⟩

end Histories

namespace System

variable {s : System} {m : Move} {t u : TaskId} {x : Transfer} {ok : Bool} {stay : Stay}
  {h : History} {fault : Option Fault}

/-! ### Whose turn begins or ends a transfer -/

theorem transferOf_after_of_ne (hn : 0 < s.pool.ledger.size) (hp : s.Permits m)
    (turn : m.turn? ≠ some u) : (s.after m).transferOf u = s.transferOf u := by
  rw [transferOf, find?_after_of_ne hn hp turn, transferOf]

theorem transferOf_before_turn (hn : 0 < s.pool.ledger.size) (hp : s.Permits m)
    (turn : m.turn? = some u) (hx : (s.after m).transferOf u = some x) : s.transferOf u = none := by
  have latched {task : Option Task} {y : Transfer} (hy : task.bind (·.transfer?) = some y) :
      task.bind (·.latch?) ≠ none := by
    obtain ⟨task, rfl, hy⟩ := Option.bind_eq_some_iff.1 hy
    simp [Task.latch?_of_transfer? hy]
  have pace := pace_after hn hp
  rw [turn] at pace
  cases pace with
  | turn _ paces =>
    cases paces with
    | goesOn none | leaves none => exact none
    | settles _ free => exact (latched hx free).elim
    | asks free =>
      refine Option.eq_none_iff_forall_ne_some.2 fun y hy => ?_
      exact latched hy free

theorem begun_after (hn : 0 < s.pool.ledger.size) (hp : s.Permits m)
    (begun : ∀ x, s.transferOf u = some x → h.Begun u x) (hx : (s.after m).transferOf u = some x) :
    History.Begun u x ((s, m) :: h) := by
  by_cases turn : m.turn? = some u
  · exact History.begun_now (transferOf_before_turn hn hp turn hx) hx
  · rw [transferOf_after_of_ne hn hp turn] at hx
    exact (begun x hx).cons turn

theorem turn_of_ended (he : s.ended? m = some (x, ok)) :
    ∃ t, m.turn? = some t ∧ s.transferOf t = some x := by
  cases m with
  | resume t | cancel t =>
    obtain ⟨y, hx, he⟩ := Option.map_eq_some_iff.1 he
    obtain ⟨rfl, -⟩ := Prod.mk.inj he
    exact ⟨t, rfl, hx⟩
  | _ => cases he

theorem turn_ne_of_unended (hp : s.Permits m) (he : s.ended? m = none)
    (hx : s.transferOf u = some x) : m.turn? ≠ some u := by
  intro turn
  cases m with
  | begin t op =>
    obtain rfl := Option.some.inj turn
    cases (transferOf_eq_none hp.1).symm.trans hx
  | resume t | cancel t =>
    obtain rfl := Option.some.inj turn
    simp [ended?, hx] at he
  | abandon t =>
    obtain rfl := Option.some.inj turn
    obtain ⟨j, y, purpose, stage, ht⟩ := hp
    cases (transferOf_eq ht).symm.trans hx
  | _ => cases turn

/-! ### Pages in arrears -/

/-- The page of a stay is taken out of the pool without being written: its load fails or is given
up, or it is disposed of. -/
def Drops (s : System) (stay : Stay) (m : Move) : Bool :=
  (s.marks m).any fun
    | .lost y => y = stay
    | .expelled key => key = s.labels.key stay.file stay.page
    | _ => false

/-- The page of a stay is in its frame. It is dirty, or somebody is writing it who has claimed it in
the history. -/
def Owes (s : System) (stay : Stay) (h : History) : Prop :=
  ∃ o, s.pool.ledger.occupant? stay.frame = some o ∧
    stay = s.pool.ledger.stayOf stay.frame o ∧
    (o.dirty = true ∨
      ∃ u, s.transferOf u = some ⟨.writeBack, stay⟩ ∧ h.Begun u ⟨.writeBack, stay⟩)

section Move

variable {o : Occupant} (hs : s.Regular)
include hs

theorem Regular.io_of_writing (ho : s.pool.ledger.occupant? stay.frame = some o)
    (hx : s.transferOf u = some ⟨.writeBack, stay⟩) : o.io = .busy .writeBack := by
  obtain ⟨q, hq, hio, -⟩ := hs.escorted.seated hx
  obtain rfl := Option.some.inj (ho.symm.trans hq)
  exact hio

theorem Regular.lost_of_losesLoad (lost : s.LosesLoad stay m) : .lost stay ∈ s.marks m := by
  cases m with
  | resume t fault =>
    obtain ⟨hx, e, he⟩ := lost
    obtain ⟨file, page, k, w, ht⟩ := hs.orderly.fetch_of_load hx
    simp only [marks, ht, Option.elim_some, marksOf]
    split
    · next hr => cases he.symm.trans (congrArg Prod.snd hr)
    · exact List.mem_singleton_self _
  | cancel t =>
    have hx : s.transferOf t = some ⟨.load, stay⟩ := lost
    simp [marks, hx]
  | _ => exact lost.elim

theorem Regular.expelled_of_disposes {i : FrameNo} (ho : s.pool.ledger.occupant? i = some o)
    (available : o.standing = .available) (hd : s.Disposes (o.key s.labels) m) :
    .expelled (o.key s.labels) ∈ s.marks m := by
  cases m with
  | resume t fault =>
    obtain ⟨file, page, look, ht, hkey⟩ := hd
    have expels : s.pool.ledger.expels (o.key s.labels) = true := by
      simp [Ledger.expels, hs.consistent.find?_key ho, ho, available]
    have key : s.labels.key file page = o.key s.labels := hkey.symm
    rw [hs.orderly.proper ht, key] at ht
    simp [marks, ht, marksOf, expels]
  | _ => exact hd.elim

theorem Owes.stays (hp : s.Permits m) (kept : s.Drops stay m = false) (owes : s.Owes stay h) :
    ∃ o o', s.pool.ledger.occupant? stay.frame = some o ∧
      (s.after m).pool.ledger.occupant? stay.frame = some o' ∧
      stay = (s.after m).pool.ledger.stayOf stay.frame o' ∧
      (o.dirty = true ∨ ∃ u, s.transferOf u = some ⟨.writeBack, stay⟩ ∧
        h.Begun u ⟨.writeBack, stay⟩) := by
  obtain ⟨o, ho, here, due⟩ := owes
  have keeps : s.pool.ledger.Keeps (s.after m).pool.ledger stay.frame o := by
    rcases fares hs hp ho with hk | ⟨-, lost⟩ | ⟨available, clean | disposed⟩
    · exact hk
    · rw [← here] at lost
      have drops : s.Drops stay m = true :=
        List.any_eq_true.2 ⟨_, hs.lost_of_losesLoad lost, by simp⟩
      exact (Bool.false_ne_true (kept.symm.trans drops)).elim
    · rcases due with dirty | ⟨u, hx, -⟩
      · cases clean.symm.trans dirty
      · have idle := (Occupant.standing_eq_available.1 available).2
        cases idle.symm.trans (hs.io_of_writing ho hx)
    · have key : o.key s.labels = s.labels.key stay.file stay.page := by
        rw [here]
        rfl
      have drops : s.Drops stay m = true :=
        List.any_eq_true.2 ⟨_, hs.expelled_of_disposes ho available disposed, by simp [key]⟩
      exact (Bool.false_ne_true (kept.symm.trans drops)).elim
  obtain ⟨o', ho', hf, hpage, hg⟩ := keeps
  refine ⟨o, o', ho, ho', ?_, due⟩
  rw [Ledger.stayOf, hf, hpage, ← Ledger.generation, hg]
  exact here

theorem Owes.of_unended (owes : s.Owes stay h) (hp : s.Permits m) (kept : s.Drops stay m = false)
    (he : s.ended? m = none) : (s.after m).Owes stay ((s, m) :: h) := by
  have hn := hs.consistent.size_pos
  have hs' := (acts_after hs.orderly hn hp).regular hs
  obtain ⟨o, o', ho, ho', here, dirty | ⟨u, hx, begun⟩⟩ := owes.stays hs hp kept
  · refine ⟨o', ho', here, ?_⟩
    cases fate_after hs hp he ho' with
    | arrived ha ho₁ hg =>
      -- The frame has not been given to another page.
      obtain ⟨q, hq, hst, -⟩ := owes
      have old : stay.generation = s.pool.ledger.generation stay.frame := congrArg Stay.generation hst
      have new : stay.generation = (s.after m).pool.ledger.generation stay.frame :=
        congrArg Stay.generation here
      omega
    | stayed hq _ alters =>
      obtain rfl := Option.some.inj (ho.symm.trans hq)
      cases alters with
      | used | pinned => exact .inl dirty
      | givenBack | unpinned => exact .inl (by simp [Occupant.returned, dirty])
      | claimed r idle =>
        -- Whoever has claimed the page has done so in this move.
        obtain ⟨u, hx⟩ := hs'.escorted.carried ho' rfl
        rw [← here] at hx
        refine .inr ⟨u, hx, History.begun_now ?_ hx⟩
        by_cases turn : m.turn? = some u
        · exact transferOf_before_turn hn hp turn hx
        · rw [transferOf_after_of_ne hn hp turn] at hx
          cases idle.symm.trans (hs.io_of_writing ho hx)
  · have turn := turn_ne_of_unended hp he hx
    refine ⟨o', ho', here, .inr ⟨u, ?_, begun.cons turn⟩⟩
    exact (transferOf_after_of_ne hn hp turn).trans hx

theorem Owes.of_ended (owes : s.Owes stay h) (hp : s.Permits m) (kept : s.Drops stay m = false)
    (he : s.ended? m = some (x, ok)) :
    (s.after m).Owes stay ((s, m) :: h) ∨ History.Written stay ((s, m) :: h) := by
  have hn := hs.consistent.size_pos
  obtain ⟨o, o', ho, ho', here, due⟩ := owes.stays hs hp kept
  obtain ⟨t, turn, moving⟩ := turn_of_ended he
  -- Whoever else writes a page goes on doing so.
  have other {u : TaskId} (hne : t ≠ u) (hx : s.transferOf u = some ⟨.writeBack, stay⟩)
      (begun : h.Begun u ⟨.writeBack, stay⟩) : (s.after m).Owes stay ((s, m) :: h) := by
    have turn' : m.turn? ≠ some u := by simpa [turn] using hne
    refine ⟨o', ho', here, .inr ⟨u, ?_, begun.cons turn'⟩⟩
    exact (transferOf_after_of_ne hn hp turn').trans hx
  rcases due with dirty | ⟨u, hx, begun⟩
  · left
    refine ⟨o', ho', here, .inl ?_⟩
    obtain ⟨-, q, hq, ⟨-, rfl⟩ | ⟨-, -, ⟨-, rfl⟩ | ⟨-, -, rfl⟩⟩⟩ := hs.of_ended he ho'
    · obtain rfl := Option.some.inj (ho.symm.trans hq)
      exact dirty
    · obtain rfl := Option.some.inj (ho.symm.trans hq)
      exact dirty
    · rfl
  · by_cases hne : t = u
    · subst hne
      obtain rfl := Option.some.inj (moving.symm.trans hx)
      obtain ⟨-, q, hq, ⟨hframe, -⟩ | ⟨-, -, ⟨rfl, -⟩ | ⟨-, -, rfl⟩⟩⟩ := hs.of_ended he ho'
      · exact (hframe rfl).elim
      · exact .inr ⟨[], s, m, t, h, rfl, turn, he, begun⟩
      · exact .inl ⟨_, ho', here, .inl rfl⟩
    · exact .inl (other hne hx begun)

/-- After a move that does not drop it, a page in arrears is in arrears still, or has been written.
-/
theorem Owes.move (owes : s.Owes stay h) (hp : s.Permits m) (kept : s.Drops stay m = false) :
    (s.after m).Owes stay ((s, m) :: h) ∨ History.Written stay ((s, m) :: h) := by
  cases he : s.ended? m with
  | none => exact .inl (owes.of_unended hs hp kept he)
  | some ended => exact owes.of_ended hs hp kept he

end Move

/-! ### The flush -/

/-- A flush takes its turn and looks at a frame while the page there is being loaded. -/
def Overlooks (s : System) (t : TaskId) (i : FrameNo) (m : Move) : Bool :=
  m.turn? = some t && (s.tasks.find? t).any (·.looksAt i) && s.pool.ledger.isLoading i

theorem Owes.approaches_look {j : FrameNo} {files : List FileNo} {look : Option Ticket}
    (owes : s.Owes stay h) (hs : s.Regular)
    (ht : s.tasks.find? t = some (.flushAll j files (.look look))) (hj : j ≤ stay.frame)
    (seen : s.Overlooks t stay.frame (.resume t fault) = false) :
    (s.after (.resume t fault)).Approaches t stay.frame := by
  obtain ⟨o, ho, -, due⟩ := owes
  have find := find?_after_resume ht fault
  have hlt : j < s.pool.size := Nat.lt_of_le_of_lt hj (Ledger.lt_size_of_occupant? ho)
  obtain ⟨l, r, ha⟩ : ∃ l r, s.pool.ledger.flushAllAt j = (l, r) := ⟨_, _, rfl⟩
  simp only [advance, lookForFlushAll, if_pos hlt, ha] at find
  cases Ledger.flushAllAt_cases ha with
  | skip hskip =>
    have hne : j ≠ stay.frame := by
      rintro rfl
      rcases hskip o ho with loading | ⟨idle, clean⟩
      · simp [Overlooks, Move.turn?, ht, Task.looksAt, Ledger.isLoading, ho, loading] at seen
      · rcases due with dirty | ⟨u, hx, -⟩
        · cases clean.symm.trans dirty
        · cases idle.symm.trans (hs.io_of_writing ho hx)
    exact approaches_of_look find (Nat.lt_of_le_of_ne hj hne)
  | wait => exact approaches_of_look find hj
  | @claimed q hq =>
    refine ⟨j, files, .move ⟨.writeBack, s.pool.ledger.stayOf j q⟩, find, hj, fun y hy => ?_⟩
    obtain rfl := Option.some.inj hy
    rfl

theorem Owes.approaches_move {j : FrameNo} {files : List FileNo} (owes : s.Owes stay h)
    (hs : s.Regular) (ht : s.tasks.find? t = some (.flushAll j files (.move x)))
    (hj : j ≤ stay.frame) (hx : x.stay.frame = j) (begun : h.Begun t x) :
    History.Written stay ((s, .resume t fault) :: h) ∨
      (s.after (.resume t fault)).tasks.find? t = none ∨
      (s.after (.resume t fault)).Approaches t stay.frame := by
  obtain ⟨o, ho, here, -⟩ := owes
  have find := find?_after_resume ht fault
  have ok := s.isOk_finishTransfer t x fault
  simp only [advance] at find
  split at find
  · exact .inr (.inl find)
  · next hr =>
    rw [hr] at ok
    by_cases hframe : j = stay.frame
    · -- This is the page, and it has been written.
      left
      have moving : s.transferOf t = some x := transferOf_eq ht
      obtain ⟨q, hq, -, hst⟩ := hs.escorted.seated moving
      rw [hx, hframe] at hq hst
      obtain rfl := Option.some.inj (ho.symm.trans hq)
      obtain ⟨kind, y⟩ := x
      obtain rfl : kind = .writeBack := hs.orderly.proper ht
      obtain rfl : y = stay := hst.trans here.symm
      refine ⟨[], s, .resume t fault, t, h, rfl, rfl, ?_, begun⟩
      rw [ended?, moving, Option.map_some, ← ok]
      rfl
    · exact .inr (.inr (approaches_of_look find (Nat.lt_of_le_of_ne hj hframe)))

/-- No move takes a flush past a page in arrears, as long as the flush does not overlook it. -/
theorem Owes.approaches (owes : s.Owes stay h) (hs : s.Regular) (hp : s.Permits m)
    (hb : ¬ m.Begins t) (seen : s.Overlooks t stay.frame m = false)
    (begun : ∀ x, s.transferOf t = some x → h.Begun t x) (ha : s.Approaches t stay.frame) :
    History.Written stay ((s, m) :: h) ∨ (s.after m).tasks.find? t = none ∨
      (s.after m).Approaches t stay.frame := by
  obtain ⟨j, files, stage, ht, hj, hx⟩ := ha
  by_cases turn : m.turn? = some t
  · cases m with
    | begin u op => exact (hb (Option.some.inj turn)).elim
    | resume u fault =>
      obtain rfl := Option.some.inj turn
      cases stage with
      | look => exact .inr (.inr (owes.approaches_look hs ht hj seen))
      | move x => exact owes.approaches_move hs ht hj (hx x rfl) (begun x (transferOf_eq ht))
    | cancel u =>
      obtain rfl := Option.some.inj turn
      exact .inr (.inl (find?_after_cancel ht))
    | abandon u =>
      obtain rfl := Option.some.inj turn
      obtain ⟨k, y, purpose, stage', ht'⟩ := hp
      cases ht.symm.trans ht'
    | _ => cases turn
  · refine .inr (.inr ⟨j, files, stage, ?_, hj, hx⟩)
    rwa [find?_after_of_ne hs.consistent.size_pos hp turn]

end System

section Flush

variable {n : Nat} (hn : 0 < n) {c : Catalog} {h₀ h : History} {s₀ s : System} {t : TaskId}
  (run : ReachesShared (fun _ => True) (.new n c) h₀ s₀) (begins : s₀.Permits (.begin t .flushAll))
  (since : ReachesShared (fun m => ¬ m.Begins t) (s₀.after (.begin t .flushAll)) h s)
include hn run begins since

theorem ReachesShared.flushBegun {x : Transfer} (hx : s.transferOf t = some x) : h.Begun t x := by
  induction since generalizing x with
  | start =>
    rw [System.transferOf, System.after, System.tasks_begin, Table.find?_insert_self] at hx
    cases hx
  | @move h s m since possible unbegun ih =>
    have hs := (run.sinceBegun begins since).regular hn
    exact System.begun_after hs.consistent.size_pos possible (fun x hx => ih hx) hx
  | others since _ ih => exact ih hx

/-- All along a flush, a page that was dirty at its beginning has been written, or is in arrears and
has not been passed. -/
theorem ReachesShared.arrears {i : FrameNo} {o : Occupant}
    (ho : s₀.pool.ledger.occupant? i = some o) (dirty : o.dirty = true)
    (kept : ∀ x ∈ h, x.1.Drops (s₀.pool.ledger.stayOf i o) x.2 = false)
    (seen : ∀ x ∈ h, x.1.Overlooks t i x.2 = false) :
    h.Written (s₀.pool.ledger.stayOf i o) ∨
      (s.Owes (s₀.pool.ledger.stayOf i o) h ∧
        (s.tasks.find? t = none ∨ s.Approaches t i)) := by
  induction since with
  | start =>
    have find : (s₀.after (.begin t .flushAll)).tasks.find? t = some (.flushAll 0 [] (.look none)) := by
      rw [System.after, System.tasks_begin, Table.find?_insert_self]
      rfl
    exact .inr ⟨⟨o, ho, rfl, .inl dirty⟩, .inr (System.approaches_of_look find (Nat.zero_le i))⟩
  | @move h s m since possible unbegun ih =>
    have total := run.sinceBegun begins since
    have hs := total.regular hn
    rcases ih (fun x hx => kept x (List.mem_cons_of_mem _ hx))
      (fun x hx => seen x (List.mem_cons_of_mem _ hx)) with written | ⟨owes, way⟩
    · exact .inl written.cons
    · rcases owes.move hs possible (kept (s, m) List.mem_cons_self) with owes' | written
      · rcases way with gone | approaches
        · refine .inr ⟨owes', .inl ?_⟩
          refine System.find?_after_of_none hs.consistent.size_pos possible (fun op => ?_) gone
          rintro rfl
          exact unbegun rfl
        · have begun (x : Transfer) (hx : s.transferOf t = some x) : h.Begun t x :=
            run.flushBegun hn begins since hx
          exact (owes.approaches hs possible unbegun (seen (s, m) List.mem_cons_self) begun
            approaches).imp_right fun way' => ⟨owes', way'⟩
      · exact .inl written
  | others since _ ih =>
    rcases ih kept seen with written | ⟨owes, way⟩
    · exact .inl written
    · exact .inr ⟨owes, way⟩

end Flush

/-- When a flush of everything is done, then every page that was dirty when it was asked for, no
matter what was going on in its frame, has been written since, in a write-back that has begun since
and has succeeded. The page must not have been disposed of meanwhile or lost because its load has
failed, and the flush must not have looked at its frame while the page was being loaded. It does not
matter what else was refused or failed or was given up, who made the frame dirty again, nor who else
used the files. -/
theorem flush_writes_arrears {n : Nat} (hn : 0 < n) {c : Catalog} {h₀ : History} {s₀ : System}
    (run : ReachesShared (fun _ => True) (.new n c) h₀ s₀) {t : TaskId}
    (begins : s₀.Permits (.begin t .flushAll)) {i : FrameNo} {o : Occupant}
    (ho : s₀.pool.ledger.occupant? i = some o) (dirty : o.dirty = true) {h : History} {s : System}
    (since : ReachesShared (fun m => ¬ m.Begins t) (s₀.after (.begin t .flushAll)) h s)
    {fault : Option Fault} (done : (s.resume t fault).2.2 = some .done)
    (kept : ∀ x ∈ h, x.1.Drops (s₀.pool.ledger.stayOf i o) x.2 = false)
    (seen : ∀ x ∈ h, x.1.Overlooks t i x.2 = false) :
    h.Written (s₀.pool.ledger.stayOf i o) := by
  rcases run.arrears hn begins since ho dirty kept seen with written | ⟨-, gone | approaches⟩
  · exact written
  · simp [System.resume, gone] at done
  · exact (System.result_ne_done approaches done).elim

/-- A flush of everything has written the one page, which is dirty, and has synced its file. -/
def smallFlushed : History × System :=
  ((System.small.play smallChanged).2.after (.begin 1 .flushAll)).play
    [.resume 1 none, .resume 1 none, .resume 1 none, .resume 1 none]

/-- The dirty page is written by the flush itself. -/
theorem flush_writes_arrears_small : ∃ h₀ s₀ h s, Reaches (fun _ => True) .small h₀ s₀ ∧
    s₀.pool.ledger.occupant? 0 = some ⟨0, 0, 0, true, true, .idle⟩ ∧
    Reaches (fun m => ¬ m.Begins 1) (s₀.after (.begin 1 .flushAll)) h s ∧
    (s.resume 1 none).2.2 = some .done ∧ h.Written ⟨0, 0, 0, 1⟩ := by
  have since : Reaches (fun m => ¬ m.Begins 1)
      ((System.small.play smallChanged).2.after (.begin 1 .flushAll)) smallFlushed.1 smallFlushed.2 :=
    .play ⟨rfl, rfl, rfl, rfl, trivial⟩ (by simp [Move.Begins])
  have possible : (System.small.play smallChanged).2.Permits (.begin 1 .flushAll) := ⟨rfl, trivial⟩
  have dirty : (System.small.play smallChanged).2.pool.ledger.occupant? 0 =
    some ⟨0, 0, 0, true, true, .idle⟩ := rfl
  have done : (smallFlushed.2.resume 1 none).2.2 = some .done := rfl
  refine ⟨_, _, _, _, reaches_smallChanged, dirty, since, done, ?_⟩
  exact flush_writes_arrears Nat.zero_lt_one reaches_smallChanged.shared possible dirty rfl
    since.shared done (by decide) (by decide)

/-- While a page is being loaded somebody else gets it, forgets the handle and gives back the pin as
that of a dirty page. -/
def smallLoadingDirty : List Move :=
  [.begin 0 (.allocate 0 0), .resume 0 none, .resume 0 none, .begin 1 (.fetch 0 0 1), .resume 1 none,
    .detach 1, .unpin 0 0 true]

/-- A flush of everything meets that page. -/
def smallOverlooked : History × System :=
  ((System.small.play smallLoadingDirty).2.after (.begin 2 .flushAll)).play
    [.resume 2 none, .resume 2 none]

/-- The flush is done before the page has been loaded. No transfer has ended meanwhile, and the page
is as dirty as before. -/
theorem loading_page_overlooked : ∃ h₀ s₀ h s, Reaches (fun _ => True) .small h₀ s₀ ∧
    s₀.Permits (.begin 2 .flushAll) ∧
    s₀.pool.ledger.occupant? 0 = some ⟨0, 0, 1, true, true, .busy .load⟩ ∧
    Reaches (fun m => ¬ m.Begins 2) (s₀.after (.begin 2 .flushAll)) h s ∧
    s.Permits (.resume 2 none) ∧ (s.resume 2 none).2.2 = some .done ∧
    (∀ x ∈ h, x.1.Drops ⟨0, 0, 0, 1⟩ x.2 = false) ∧ ¬ h.Written ⟨0, 0, 0, 1⟩ ∧
    (s.after (.resume 2 none)).pool.ledger.occupant? 0 =
      some ⟨0, 0, 1, true, true, .busy .load⟩ := by
  have run : Reaches (fun _ => True) .small (System.small.play smallLoadingDirty).1
      (System.small.play smallLoadingDirty).2 := by
    refine .play ⟨⟨rfl, Nat.zero_lt_one, rfl, nofun⟩, rfl, rfl,
      ⟨rfl, Nat.zero_lt_one, rfl, by decide⟩, rfl, ⟨⟨_, rfl⟩, by decide⟩, Nat.zero_lt_one, trivial⟩
      fun _ _ => trivial
  have since : Reaches (fun m => ¬ m.Begins 2)
      ((System.small.play smallLoadingDirty).2.after (.begin 2 .flushAll)) smallOverlooked.1
      smallOverlooked.2 := .play ⟨rfl, rfl, trivial⟩ (by simp [Move.Begins])
  have unwritten : ¬ smallOverlooked.1.Written ⟨0, 0, 0, 1⟩ := by
    rintro ⟨recent, s, m, u, earlier, split, -, ended, -⟩
    have unended : ∀ x ∈ smallOverlooked.1, x.1.ended? x.2 = none := by decide
    cases (unended (s, m) (split ▸ by simp)).symm.trans ended
  exact ⟨_, _, _, _, run, ⟨rfl, trivial⟩, rfl, since, rfl, rfl, by decide, unwritten, rfl⟩

end SecondChance
