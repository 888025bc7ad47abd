import SecondChance.Proofs.Store.Liveness
import SecondChance.Proofs.System.StepOutcomes
import SecondChance.Proofs.System.Flushes
import SecondChance.Proofs.System.SharedFiles

/-!
What a flush makes sure of.

A flush takes note of the files to which it writes, and behind the last frame it syncs these files
and no others. So a file to which it has written is synced after everything that was written to it
before, be it by this flush or by anybody else.

A file to which the flush has nothing to write is not synced, even if it has been written to a
moment ago: a page that was written back to make room is clean, and nobody remembers that its file
has not been synced since. The run at the end is of this kind.
-/

namespace SecondChance

namespace System

/-- The file to which a move writes a page with success. -/
def wrote (s : System) : Move → Option FileNo
  | .resume t fault =>
    match s.transferOf t with
    | some ⟨.writeBack, stay⟩ =>
      match (s.files.write fault stay.file stay.page (.page (s.pool.buffer stay.frame))).2 with
      | .ok () => some stay.file
      | .error _ => none
    | _ => none
  | _ => none

/-- The file that a move syncs with success. -/
def synced (s : System) : Move → Option FileNo
  | .resume t fault =>
    match (s.tasks.find? t).bind (·.call?) with
    | some (f, .sync) =>
      match (s.files.sync fault f).2 with
      | .ok () => some f
      | .error _ => none
    | _ => none
  | _ => none

end System

/-- The operation flushes the pages of the file. -/
def Operation.Flushes (f : FileNo) : Operation → Prop
  | .flushFile g => g = f
  | .flushAll => True
  | _ => False

def History.Wrote (t : TaskId) (f : FileNo) (h : History) : Prop :=
  ∃ x ∈ h, x.2.turn? = some t ∧ x.1.wrote x.2 = some f

/-- Syncing the one file is syncing the other as well: they report the same identity, so they are
the same where no two files do. -/
def Catalog.Covers (c : Catalog) (g f : FileNo) : Prop :=
  (c.labels g).id = (c.labels f).id ∧ (c.Distinct → g = f)

/-- The file has been synced, and task `t` has not written to it since. -/
def History.Secured (c : Catalog) (t : TaskId) (f : FileNo) (h : History) : Prop :=
  ∃ later x earlier, h = later ++ x :: earlier ∧
    (∃ g, x.1.synced x.2 = some g ∧ c.Covers g f) ∧ ¬ History.Wrote t f later

/-- The list of files of a flush of everything has one for each file that it has written to, until
that file has been synced; the count of a flush of one file is not zero once it has written. -/
def Task.Accounts (c : Catalog) (t : TaskId) (f : FileNo) (h : History) : Task → Prop
  | .flushAll _ files _ => (∀ g ∈ files, g < c.files.size) ∧
      (h.Wrote t f → ∃ g ∈ files, (c.labels g).id = (c.labels f).id)
  | .syncAll _ files => (∀ g ∈ files, g < c.files.size) ∧
      (h.Wrote t f → (∃ g ∈ files, (c.labels g).id = (c.labels f).id) ∨ h.Secured c t f)
  | .flushFile g _ written _ => g = f ∧ (h.Wrote t f → written ≠ 0)
  | .syncFile g _ => g = f
  | _ => False

theorem Catalog.lt_size_of_write {c : Catalog} {fault : Option Fault} {f : FileNo} {n : PageNo}
    {b : Buffer} (h : (c.write fault f n b).2 = .ok ()) : f < c.files.size := by
  by_contra hf
  have none : c.files[f]? = none := Array.getElem?_eq_none (Nat.le_of_not_lt hf)
  have undisturbed := Fault.disturb_ok h
  simp only [none] at undisturbed
  cases undisturbed

namespace System

variable {s : System} {m : Move} {t : TaskId} {fault : Option Fault} {f : FileNo} {stay : Stay}

theorem wrote_of_transferOf (hx : s.transferOf t = none) (fault : Option Fault) :
    s.wrote (.resume t fault) = none := by
  rw [wrote, hx]

theorem wrote_cases (hw : s.wrote m = some f) : ∃ t fault stay, m = .resume t fault ∧
    s.transferOf t = some ⟨.writeBack, stay⟩ ∧ stay.file = f ∧
    (s.files.write fault stay.file stay.page (.page (s.pool.buffer stay.frame))).2 = .ok () := by
  cases m with
  | resume t fault =>
    simp only [wrote] at hw
    split at hw
    · next stay hx =>
      split at hw
      · next hr => exact ⟨t, fault, stay, rfl, hx, Option.some.inj hw, hr⟩
      · cases hw
    · cases hw
  | _ => cases hw

theorem lt_size_of_wrote (hw : s.wrote m = some f) : f < s.files.files.size := by
  obtain ⟨t, fault, stay, -, -, rfl, hr⟩ := wrote_cases hw
  exact Catalog.lt_size_of_write hr

theorem wrote_of_finishTransfer (hx : s.transferOf t = some ⟨.writeBack, stay⟩)
    (hr : (s.finishTransfer t ⟨.writeBack, stay⟩ fault).2.2 = .ok ()) :
    s.wrote (.resume t fault) = some stay.file := by
  simp only [finishTransfer, finishWriteBack] at hr
  split at hr
  · next hw => simp [wrote, hx, hw]
  · cases hr

theorem synced_of_call {task : Task} (ht : s.tasks.find? t = some task)
    (hc : task.call? = some (f, .sync)) (hr : (s.files.sync fault f).2 = .ok ()) :
    s.synced (.resume t fault) = some f := by
  simp [synced, ht, hc, hr]

end System

section Histories

variable {s : System} {m : Move} {c : Catalog} {t : TaskId} {f : FileNo} {h : History}

theorem History.not_wrote_nil : ¬ History.Wrote t f [] := fun ⟨_, hx, _⟩ => nomatch hx

theorem History.wrote_cons : History.Wrote t f ((s, m) :: h) ↔
    (m.turn? = some t ∧ s.wrote m = some f) ∨ h.Wrote t f := by
  simp [History.Wrote]

theorem History.Secured.cons (quiet : ¬ (m.turn? = some t ∧ s.wrote m = some f))
    (h' : h.Secured c t f) : History.Secured c t f ((s, m) :: h) := by
  obtain ⟨later, x, earlier, rfl, hx, unwritten⟩ := h'
  refine ⟨(s, m) :: later, x, earlier, rfl, hx, ?_⟩
  rw [History.wrote_cons]
  rintro (now | before)
  · exact quiet now
  · exact unwritten before

theorem History.Secured.now {g : FileNo} (hm : s.synced m = some g) (hg : c.Covers g f) :
    History.Secured c t f ((s, m) :: h) :=
  ⟨[], (s, m), h, rfl, ⟨g, hm, hg⟩, History.not_wrote_nil⟩

theorem Task.Accounts.cons {task : Task} (quiet : ¬ (m.turn? = some t ∧ s.wrote m = some f))
    (acc : task.Accounts c t f h) : task.Accounts c t f ((s, m) :: h) := by
  have same : History.Wrote t f ((s, m) :: h) → h.Wrote t f := fun hw =>
    (History.wrote_cons.1 hw).resolve_left quiet
  cases task with
  | flushAll => exact ⟨acc.1, fun hw => acc.2 (same hw)⟩
  | syncAll => exact ⟨acc.1, fun hw => (acc.2 (same hw)).imp_right (·.cons quiet)⟩
  | flushFile => exact ⟨acc.1, fun hw => acc.2 (same hw)⟩
  | syncFile => exact acc
  | _ => exact acc.elim

theorem Task.accounts_firstTask {labels : Labels} {op : Operation} (hop : op.Flushes f) :
    (System.firstTask labels op).Accounts c t f [] := by
  cases op with
  | flushFile => exact ⟨hop, fun hw => (History.not_wrote_nil hw).elim⟩
  | flushAll => exact ⟨nofun, fun hw => (History.not_wrote_nil hw).elim⟩
  | _ => exact hop.elim

theorem System.mem_alsoWritten {labels : Labels} {files : List FileNo} {g : FileNo}
    (hg : g ∈ System.alsoWritten labels files f) : g ∈ files ∨ g = f := by
  unfold alsoWritten at hg
  split at hg
  · exact .inl hg
  · simpa using hg

theorem System.exists_alsoWritten (labels : Labels) (files : List FileNo) (f : FileNo) :
    ∃ g ∈ System.alsoWritten labels files f, (labels g).id = (labels f).id := by
  unfold alsoWritten
  split
  · next known => simpa using known
  · exact ⟨f, by simp, rfl⟩

theorem System.mem_alsoWritten_of_mem {labels : Labels} {files : List FileNo} {g : FileNo}
    (hg : g ∈ files) : g ∈ System.alsoWritten labels files f := by
  unfold alsoWritten
  split
  · exact hg
  · exact List.mem_append_left _ hg

end Histories

namespace System

variable {s : System} {c : Catalog} {m : Move} {t : TaskId} {f : FileNo} {h : History}
  {old task : Task} {fault : Option Fault}

/-- A flush that goes on still accounts for what it has written. -/
theorem accounts_of_course (hs : s.Regular) (same : s.files.registry = c.registry)
    (hf : f < c.files.size) (ht : s.tasks.find? t = some old)
    (course : s.Course t fault old (.goesOn task)) (acc : old.Accounts c t f h) :
    task.Accounts c t f ((s, .resume t fault) :: h) := by
  have labels : s.labels = c.labels := Catalog.labels_of_registry same
  have size : s.files.files.size = c.files.size := Catalog.size_of_registry same
  have transfer : s.transferOf t = old.transfer? := transferOf_eq ht
  have opened {g : FileNo} (hg : s.wrote (.resume t fault) = some g) : g < c.files.size :=
    size ▸ lt_size_of_wrote hg
  -- Whoever moves no page has nothing to add to the account.
  have quiet (hx : old.transfer? = none) :
      ¬ ((Move.resume t fault).turn? = some t ∧ s.wrote (.resume t fault) = some f) := by
    rw [wrote_of_transferOf (transfer.trans hx)]
    rintro ⟨-, hw⟩
    cases hw
  cases course with
  | flushingFile | flushing => exact acc.cons (quiet rfl)
  | behindFile => exact acc.1
  | wroteFile hr => exact ⟨acc.1, fun _ => Nat.succ_ne_zero _⟩
  | behind =>
    obtain ⟨hfiles, hold⟩ := acc.cons (s := s) (m := .resume t fault) (quiet rfl)
    exact ⟨hfiles, fun hw => .inl (hold hw)⟩
  | @wrote i files x hr =>
    obtain ⟨kind, stay⟩ := x
    obtain rfl : kind = .writeBack := hs.orderly.proper ht
    have hw := wrote_of_finishTransfer transfer hr
    constructor
    · intro g hg
      rcases mem_alsoWritten hg with hg | rfl
      · exact acc.1 g hg
      · exact opened hw
    · intro written
      rw [labels]
      rcases History.wrote_cons.1 written with ⟨-, now⟩ | before
      · obtain rfl := Option.some.inj (hw.symm.trans now)
        exact exists_alsoWritten ..
      · obtain ⟨g, hg, hid⟩ := acc.2 before
        exact ⟨g, mem_alsoWritten_of_mem hg, hid⟩
  | @synced n file files hr =>
    obtain ⟨hfiles, hold⟩ := acc.cons (s := s) (m := .resume t fault) (quiet rfl)
    refine ⟨fun g hg => hfiles g (List.mem_cons_of_mem _ hg), fun written => ?_⟩
    rcases hold written with ⟨g, hg, hid⟩ | secured
    · rcases List.mem_cons.1 hg with rfl | hg
      · -- This is the file that is being synced.
        exact .inr (.now (synced_of_call ht rfl hr) ⟨hid, fun hd => hd _ _ (hfiles _ hg) hf hid⟩)
      · exact .inl ⟨g, hg, hid⟩
    · exact .inr secured
  | _ => exact acc.elim

/-- A flush that is done has synced the file if it has written to it. -/
theorem secured_of_course (ht : s.tasks.find? t = some old)
    (course : s.Course t fault old (.ends .done)) (acc : old.Accounts c t f h)
    (written : h.Wrote t f) : History.Secured c t f ((s, .resume t fault) :: h) := by
  cases course with
  | unwritten => exact (acc.2 written rfl).elim
  | syncedFile hr =>
    obtain rfl : _ = f := acc
    exact .now (synced_of_call ht rfl hr) ⟨rfl, fun _ => rfl⟩
  | allSynced =>
    have quiet : s.wrote (.resume t fault) = none :=
      wrote_of_transferOf ((transferOf_eq ht).trans rfl) fault
    rcases acc.2 written with ⟨g, hg, -⟩ | secured
    · cases hg
    · refine secured.cons ?_
      rw [quiet]
      rintro ⟨-, hw⟩
      cases hw
  | _ => exact acc.elim

theorem synced_eq_none (hw : s.wrote m = some f) : s.synced m = none := by
  obtain ⟨t, fault, stay, rfl, hx, -⟩ := wrote_cases hw
  obtain ⟨task, ht, hx⟩ := Option.bind_eq_some_iff.1 hx
  simp [synced, ht, Task.call?_of_transfer? hx, Transfer.call]

end System

theorem ReachesShared.registry_of_mem {allowed : Move → Prop} {n : Nat} (hn : 0 < n) {c : Catalog}
    {h : History} {s : System} (run : ReachesShared allowed (.new n c) h s) {x : System × Move}
    (hx : x ∈ h) : x.1.files.registry = c.registry := by
  induction run with
  | start => cases hx
  | move run possible kind ih =>
    rcases List.mem_cons.1 hx with rfl | hx
    · exact run.registry hn
    · exact ih hx
  | others _ _ ih => exact ih hx

section Flush

variable {n : Nat} (hn : 0 < n) {c : Catalog} {h₀ h : History} {s₀ s : System} {t : TaskId}
  {op : Operation} {f : FileNo} (run : ReachesShared (fun _ => True) (.new n c) h₀ s₀)
  (begins : s₀.Permits (.begin t op))
  (since : ReachesShared (fun m => ¬ m.Begins t) (s₀.after (.begin t op)) h s)
include hn run begins since

omit hn in
theorem ReachesShared.sinceBegun :
    ReachesShared (fun _ => True) (.new n c) (h ++ (s₀, .begin t op) :: h₀) s :=
  (run.move begins trivial).append (since.mono fun _ _ => trivial)

theorem ReachesShared.accounts (hop : op.Flushes f) (hf : f < c.files.size) {task : Task}
    (ht : s.tasks.find? t = some task) : task.Accounts c t f h := by
  induction since generalizing task with
  | start =>
    rw [System.after, System.tasks_begin, Table.find?_insert_self] at ht
    obtain rfl := Option.some.inj ht
    exact Task.accounts_firstTask hop
  | @move h s m since possible unbegun ih =>
    have total := run.sinceBegun begins since
    have hs := total.regular hn
    rcases System.task_after hs.consistent.size_pos possible ht with
      ⟨turn, before⟩ | ⟨op', rfl, -⟩ | ⟨fault, old, rfl, before, course⟩
    · exact (ih before).cons fun hw => turn hw.1
    · exact (unbegun rfl).elim
    · exact System.accounts_of_course hs (total.registry hn) hf before course (ih before)
  | others since _ ih => exact ih ht

theorem ReachesShared.secured (hop : op.Flushes f) {fault : Option Fault}
    (ready : s.Permits (.resume t fault)) (done : (s.resume t fault).2.2 = some .done)
    (written : h.Wrote t f) : History.Secured c t f ((s, .resume t fault) :: h) := by
  have hf : f < c.files.size := by
    obtain ⟨x, hx, -, hw⟩ := written
    have total := run.sinceBegun begins since
    rw [← Catalog.size_of_registry (total.registry_of_mem hn (List.mem_append_left _ hx))]
    exact System.lt_size_of_wrote hw
  obtain ⟨old, ht, -⟩ := System.isReady_iff.1 ready
  have course : s.Course t fault old (s.advance t fault old).2.2 := System.course_advance old
  rw [System.result_resume ht] at done
  generalize (s.advance t fault old).2.2 = turn at course done
  cases turn with
  | goesOn => cases done
  | ends result =>
    obtain rfl := Option.some.inj done
    exact System.secured_of_course ht course (run.accounts hn begins since hop hf ht) written

end Flush

/-- When a flush is done and has written to a file, then the file has been synced with success after
every page that was written to it with success by this flush, or by anybody before the flush was
asked for. It does not matter what was refused or failed meanwhile, nor who else was at work. -/
theorem flushed_files_synced {n : Nat} (hn : 0 < n) {c : Catalog} {h₀ : History} {s₀ : System}
    (run : ReachesShared (fun _ => True) (.new n c) h₀ s₀) {t : TaskId} {op : Operation}
    {f : FileNo} (hop : op.Flushes f) (begins : s₀.Permits (.begin t op)) {h : History} {s : System}
    (since : ReachesShared (fun m => ¬ m.Begins t) (s₀.after (.begin t op)) h s)
    {fault : Option Fault} (ready : s.Permits (.resume t fault))
    (done : (s.resume t fault).2.2 = some .done)
    (written : h.Wrote t f) {later earlier : History} {x : System × Move}
    (split : (s, .resume t fault) :: h ++ (s₀, .begin t op) :: h₀ = later ++ x :: earlier)
    (hx : x.1.wrote x.2 = some f) (hxt : earlier.length < h₀.length ∨ x.2.turn? = some t) :
    ∃ y ∈ later, ∃ g, y.1.synced y.2 = some g ∧ (c.labels g).id = (c.labels f).id ∧
      (c.Distinct → g = f) := by
  obtain ⟨recent, y, before, hy, ⟨g, hg, cover⟩, unwritten⟩ :=
    run.secured hn begins since hop ready done written
  have other : y ≠ x := by
    rintro rfl
    cases hg.symm.trans (System.synced_eq_none hx)
  rw [hy, List.append_assoc, List.cons_append] at split
  rcases List.append_eq_append_iff.1 split with ⟨between, rfl, hrest⟩ | ⟨between, rfl, hrest⟩
  · cases between with
    | nil => exact (other (List.cons.inj hrest).1).elim
    | cons z between =>
      obtain ⟨rfl, -⟩ := List.cons.inj hrest
      exact ⟨y, by simp, g, hg, cover⟩
  · cases between with
    | nil => exact (other (List.cons.inj hrest).1.symm).elim
    | cons z between =>
      -- The page was written after the file had been synced, so neither in time nor by the flush.
      obtain ⟨rfl, rfl⟩ := List.cons.inj hrest
      rcases hxt with long | turn
      · simp at long
        omega
      · exact (unwritten ⟨x, by simp, turn, hx⟩).elim

/-- A page is changed and given back. -/
def smallChanged : List Move :=
  [.begin 0 (.allocate 0 0), .resume 0 none, .resume 0 none, .resume 0 none, .markDirty 0,
    .release 0]

theorem reaches_smallChanged : Reaches (fun _ => True) .small (System.small.play smallChanged).1
    (System.small.play smallChanged).2 := by
  refine .play ⟨⟨rfl, Nat.zero_lt_one, rfl, nofun⟩, rfl, rfl, rfl, ⟨⟨_, rfl⟩, nofun⟩,
    ⟨⟨_, rfl⟩, nofun⟩, trivial⟩ fun _ _ => trivial

/-- The page is written by a flush, and then its file is synced. -/
theorem flushed_files_synced_small : ∃ h₀ s₀ h s, Reaches (fun _ => True) .small h₀ s₀ ∧
    Reaches (fun m => ¬ m.Begins 1) (s₀.after (.begin 1 .flushAll)) h s ∧
    (s.resume 1 none).2.2 = some .done ∧ h.Wrote 1 0 ∧
    ∃ y ∈ (s, Move.resume 1 none) :: h, y.1.synced y.2 = some 0 := by
  let moves : List Move := [.resume 1 none, .resume 1 none, .resume 1 none, .resume 1 none]
  let begun := (System.small.play smallChanged).2.after (.begin 1 .flushAll)
  have since : Reaches (fun m => ¬ m.Begins 1) begun (begun.play moves).1 (begun.play moves).2 :=
    .play ⟨rfl, rfl, rfl, rfl, trivial⟩ (by simp [moves, Move.Begins])
  have possible : (System.small.play smallChanged).2.Permits (.begin 1 .flushAll) := ⟨rfl, trivial⟩
  have hop : Operation.flushAll.Flushes 0 := trivial
  have ready : (begun.play moves).2.Permits (.resume 1 none) := rfl
  have done : ((begun.play moves).2.resume 1 none).2.2 = some .done := rfl
  have written : History.Wrote 1 0 (begun.play moves).1 := ⟨_, .tail _ (.tail _ (.head _)), rfl, rfl⟩
  obtain ⟨y, hy, g, hg, -, same⟩ := flushed_files_synced Nat.zero_lt_one
    reaches_smallChanged.shared hop possible since.shared ready done written
    (List.take_append_drop 3 _).symm rfl (.inr rfl)
  obtain rfl := same distinct_small
  exact ⟨_, _, _, _, reaches_smallChanged, since, done, written, y,
    List.mem_append_left [_, _] hy, hg⟩

/-- A page is written back to make room for another, and then everything is flushed. -/
def smallEvicted : List Move :=
  smallChanged ++ [.begin 1 (.fetch 0 1 1), .resume 1 none, .resume 1 none]

/-- A page is written back by a fetch that needs its frame, and then everything is flushed: nothing
is left to write, and the file is never synced. -/
theorem evicted_page_unsynced : ∃ h₀ s₀ h s, Reaches (fun _ => True) .small h₀ s₀ ∧
    s₀.Permits (.begin 2 .flushAll) ∧
    Reaches (fun m => ¬ m.Begins 2) (s₀.after (.begin 2 .flushAll)) h s ∧
    s.Permits (.resume 2 none) ∧ (s.resume 2 none).2.2 = some .done ∧
    (∃ x ∈ h₀, x.1.wrote x.2 = some 0) ∧
    ∀ y ∈ (s, .resume 2 none) :: h ++ (s₀, .begin 2 .flushAll) :: h₀, y.1.synced y.2 = none := by
  have evicted : Reaches (fun _ => True) .small (System.small.play smallEvicted).1
      (System.small.play smallEvicted).2 := by
    refine .play ⟨⟨rfl, Nat.zero_lt_one, rfl, nofun⟩, rfl, rfl, rfl, ⟨⟨_, rfl⟩, nofun⟩,
      ⟨⟨_, rfl⟩, nofun⟩, ⟨rfl, Nat.zero_lt_one, rfl, nofun⟩, rfl, rfl, trivial⟩ fun _ _ => trivial
  let begun := (System.small.play smallEvicted).2.after (.begin 2 .flushAll)
  have since : Reaches (fun m => ¬ m.Begins 2) begun
      (begun.play [.resume 2 none, .resume 2 none]).1
      (begun.play [.resume 2 none, .resume 2 none]).2 :=
    .play ⟨rfl, rfl, trivial⟩ (by simp [Move.Begins])
  refine ⟨_, _, _, _, evicted, ⟨rfl, trivial⟩, since, rfl, rfl, ⟨_, .head _, rfl⟩, ?_⟩
  decide

end SecondChance
