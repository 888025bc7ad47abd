import SecondChance.Proofs.Ledger.Consistency
import SecondChance.Proofs.System.TransferMarks

/-!
What holds in every state of every run.

A system is *regular* if its tasks and handles are in order, its page table agrees with its frames,
and its transfers are escorted. A new system is regular, every act keeps it so, and
`Reaches.preserve` adds to this whatever else is kept by the acts of a run.
-/

namespace SecondChance

namespace Ledger

theorem Returns.size {labels : Labels} {l l' : Ledger} {stay : Stay} {dirty : Bool}
    {r : Except PoolError Unit} (h : l.Returns labels stay dirty l' r) : l'.size = l.size := by
  cases h with
  | ok => exact size_setOccupant ..
  | _ => rfl

theorem size_settle (labels : Labels) (l : Ledger) (t : Transfer) (ok : Bool) :
    (l.settle labels t ok).size = l.size := by
  unfold settle
  split
  · rfl
  · split
    · split
      · exact size_vacate ..
      · exact size_setOccupant ..
      · exact size_setOccupant ..
    · rfl

end Ledger

namespace System

/-- Tasks and handles are in order, the page table agrees with the frames, and every frame marked as
busy has exactly one task with its transfer. -/
structure Regular (s : System) : Prop where
  orderly : s.Orderly
  consistent : s.pool.ledger.Consistent s.labels
  escorted : s.pool.ledger.Escorted s.transferOf

/-- Whoever ends a transfer of a page finds its occupant in place. -/
theorem Regular.seat {s : System} (hs : s.Regular) {t : TaskId} {kind : Transfer.Kind}
    {stay : Stay} (hx : s.transferOf t = some ⟨kind, stay⟩) : ∃ o,
      (s.pool.ledger.frame stay.frame).occupantAt stay.generation = some o ∧
        s.pool.ledger.generation stay.frame = stay.generation ∧
        s.pool.ledger.occupant? stay.frame = some o ∧ o.io = .busy kind := by
  obtain ⟨o, ho, hio, -⟩ := hs.escorted.occupantAt hx
  obtain ⟨hg, ho'⟩ := Ledger.occupantAt_frame.1 ho
  exact ⟨o, ho, hg, ho', hio⟩

section TransferOf

variable (s : System) (t : TaskId)

theorem transferOf_setTask (task : Task) :
    (s.setTask t task).transferOf = Function.update s.transferOf t task.transfer? := by
  ext u
  rw [transferOf, setTask, Table.find?_insert, Function.update_apply]
  by_cases hu : t = u
  · rw [if_pos hu, if_pos hu.symm]
    rfl
  · rw [if_neg hu, if_neg (Ne.symm hu)]
    rfl

theorem transferOf_endTask : (s.endTask t).transferOf = Function.update s.transferOf t none := by
  ext u
  rw [transferOf, endTask, Table.find?_erase, Function.update_apply]
  by_cases hu : t = u
  · rw [if_pos hu, if_pos hu.symm]
    rfl
  · rw [if_neg hu, if_neg (Ne.symm hu)]
    rfl

variable {s t}

theorem transferOf_setTask_plain {task : Task} (hs : s.transferOf t = none)
    (hp : task.transfer? = none) : (s.setTask t task).transferOf = s.transferOf := by
  rw [transferOf_setTask, hp, ← hs, Function.update_eq_self]

theorem transferOf_endTask_plain (hs : s.transferOf t = none) :
    (s.endTask t).transferOf = s.transferOf := by
  rw [transferOf_endTask, ← hs, Function.update_eq_self]

theorem transferOf_eq_none (ht : s.tasks.find? t = none) : s.transferOf t = none := by
  rw [transferOf, ht]
  rfl

end TransferOf

namespace Act

variable {s s' : System} {ks : List Mark}

theorem size (a : Act s ks s') :
    s'.pool.ledger.size = s.pool.ledger.size := by
  cases a with
  | ease he => exact he.size
  | expel => exact Ledger.size_vacate ..
  | hit | claim => exact Ledger.size_setOccupant ..
  | install => exact Ledger.size_install ..
  | loaded | lost | wrote | unwritten => exact Ledger.size_settle ..
  | enter => split <;> rfl
  | giveBack hh hu hr => exact (Ledger.unpinStay_cases hr).size
  | unpin hr =>
    rcases Ledger.unpinPage_cases hr with ⟨rfl, -⟩ | ⟨i, o, -, -, -, rfl, -⟩
    · rfl
    · exact Ledger.size_setOccupant ..
  | _ => rfl

theorem escorted (a : Act s ks s') (h : s.pool.ledger.Escorted s.transferOf) :
    s'.pool.ledger.Escorted s'.transferOf := by
  cases a with
  | ease he => exact h.eased he
  | expel ht hk ho hs => exact h.vacate ho hs _
  | latch | fill | read | write | allocate | delete | sync | edit | detach | markDirty => exact h
  | start ht hp =>
    rw [transferOf_setTask_plain (transferOf_eq_none ht) hp.transfer?]
    exact h
  | turn ht hp hp' =>
    rw [transferOf_setTask_plain ((transferOf_eq ht).trans hp.transfer?) hp'.transfer?]
    exact h
  | stop ht hp =>
    rw [transferOf_endTask_plain ((transferOf_eq ht).trans hp.transfer?)]
    exact h
  | hit ht hk ho =>
    rw [transferOf_endTask_plain]
    · exact h.setOccupant ho rfl rfl rfl
    · exact transferOf_eq ht
  | install ht hk hi ho =>
    rw [transferOf_setTask]
    exact h.install (transferOf_eq ht) hi ho _ _ _
  | claim ht hp ho hio hd hx =>
    rw [transferOf_setTask, hx]
    exact h.claim ((transferOf_eq ht).trans hp.transfer?) ho hio
  | loaded ht hr =>
    rw [transferOf_endTask]
    exact h.settle (transferOf_eq ht) s.labels true
  | lost ht hx =>
    rw [transferOf_endTask]
    exact h.settle ((transferOf_eq ht).trans hx) s.labels false
  | wrote ht hx hr hp =>
    rw [transferOf_setTask, hp.transfer?]
    exact h.settle ((transferOf_eq ht).trans hx) s.labels true
  | unwritten ht hx =>
    rw [transferOf_endTask]
    exact h.settle ((transferOf_eq ht).trans hx) s.labels false
  | borrow purpose ht =>
    rw [transferOf_setTask_plain (transferOf_eq_none ht) rfl]
    exact h
  | queue ht =>
    rw [transferOf_setTask_plain (transferOf_eq ht) rfl]
    exact h
  | @enter t _ _ purpose _ ht =>
    cases purpose with
    | read =>
      rw [transferOf_setTask_plain (transferOf_eq ht) rfl]
      exact h
    | write =>
      rw [transferOf_setTask_plain _ rfl]
      · exact h
      · exact transferOf_eq ht
  | quit ht =>
    rw [transferOf_endTask_plain (transferOf_eq ht)]
    exact h
  | giveBack hh hu hr =>
    cases Ledger.unpinStay_cases hr with
    | stale | unpinned => exact h
    | ok ho => exact h.setOccupant (Ledger.occupantAt_frame.1 ho).2 rfl rfl rfl
  | unpin hr =>
    rcases Ledger.unpinPage_cases hr with ⟨rfl, -⟩ | ⟨i, o, -, ho, -, rfl, -⟩
    · exact h
    · exact h.setOccupant ho rfl rfl rfl

theorem consistent (a : Act s ks s') (h : s.pool.ledger.Consistent s.labels) :
    s'.pool.ledger.Consistent s'.labels := by
  rw [a.labels]
  cases a with
  | ease he => exact h.eased he
  | expel ht hk ho =>
    obtain ⟨o, ho', rfl⟩ := h.occupant?_of_find? hk
    exact h.vacate ho'
  | hit ht hk ho => exact h.setOccupant ho rfl
  | install ht hk hi ho => exact h.install hi ho hk
  | claim ht hp ho => exact h.setOccupant ho rfl
  | @loaded _ _ _ _ _ stay => exact h.settle ⟨.load, stay⟩ true
  | @lost _ _ stay => exact h.settle ⟨.load, stay⟩ false
  | @wrote _ _ _ stay => exact h.settle ⟨.writeBack, stay⟩ true
  | @unwritten _ _ stay => exact h.settle ⟨.writeBack, stay⟩ false
  | enter => split <;> exact h
  | giveBack hh hu hr => exact h.unpinStay hr
  | unpin hr => exact h.unpinPage hr
  | _ => exact h

theorem regular (a : Act s ks s') (h : s.Regular) : s'.Regular :=
  ⟨h.orderly.act a, a.consistent h.consistent, a.escorted h.escorted⟩

end Act

theorem Regular.new {n : Nat} (hn : 0 < n) (c : Catalog) : (System.new n c).Regular :=
  ⟨.new n c, .new hn, .new n⟩

theorem Acts.size {s s' : System} {ks : List Mark} (a : Acts s ks s') :
    s'.pool.ledger.size = s.pool.ledger.size := by
  induction a with
  | done => rfl
  | more first _ ih => exact ih.trans first.size

theorem Acts.regular {s s' : System} {ks : List Mark} (a : Acts s ks s') (h : s.Regular) :
    s'.Regular := by
  induction a with
  | done => exact h
  | more first _ ih => exact ih (first.regular h)

end System

/-- What holds at the beginning of a run and is kept by every act of a regular system holds all the
way. `ok` is what the marks of the allowed moves have in common. -/
theorem Reaches.preserve {allowed : Move → Prop} (ok : Mark → Prop) {P : List Mark → System → Prop}
    {s₀ s : System} {h : History} (hs : s₀.Regular) (hP₀ : P [] s₀)
    (hok : ∀ (s : System) (m : Move), allowed m → ∀ k ∈ s.marks m, ok k)
    (hP : ∀ {s s' : System} {ks k : List Mark}, s.Regular → P ks s → (∀ x ∈ k, ok x) →
      s.Act k s' → P (ks ++ k) s')
    (run : Reaches allowed s₀ h s) : s.Regular ∧ P h.marks s := by
  induction run with
  | start => exact ⟨hs, hP₀⟩
  | @move h s m _ possible kind ih =>
    obtain ⟨hr, hp⟩ := ih
    have acts := System.acts_after hr.orderly hr.consistent.size_pos possible
    refine acts.preserve (P := fun ks s => s.Regular ∧ P ks s) ?_ (hok s m kind) ⟨hr, hp⟩
    exact fun h hk a => ⟨a.regular h.1, hP h.1 h.2 hk a⟩

theorem Reaches.regular {allowed : Move → Prop} {n : Nat} (hn : 0 < n) {c : Catalog} {s : System}
    {h : History} (run : Reaches allowed (.new n c) h s) : s.Regular :=
  (run.preserve (P := fun _ _ => True) (fun _ => True) (.new hn c) trivial
    (fun _ _ _ _ _ => trivial) fun _ _ _ _ => trivial).1

end SecondChance
