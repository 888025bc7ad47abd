import SecondChance.Proofs.System.UntouchedPages
import SecondChance.Proofs.System.Desk

/-!
One operation after the other.

Where nothing begins before everything else has ended there is never more than one operation in
progress. So a page that is about to be deleted is not brought in again by anybody, and every page
that is to be seen in a frame is one that its file has, whatever has failed or been given up before.
-/

namespace SecondChance

namespace System

variable {s : System} {m : Move} {t : TaskId} {task : Task} {f : FileNo} {p : PageNo} {k : HandleNo}
  {stay : Stay}

/-- Whatever begins, or is done all at once, finds nothing in progress. -/
def InTurn (s : System) : Move → Bool
  | .begin .. | .markDirty _ | .release _ | .drop _ | .detach _ | .unpin .. =>
    s.tasks.entries.isEmpty
  | .resume .. | .cancel _ | .abandon _ | .edit .. | .fill .. | .strike _ => true

/-! ### Who has the pool to himself -/

theorem Alone.move (alone : s.Alone t) (hp : s.Permits m) (hb : ∀ u op, m = .begin u op → t = u) :
    (s.after m).Alone t where
  regular :=
    (acts_after alone.regular.orderly alone.regular.consistent.size_pos hp).regular alone.regular
  attended := alone.attended.move alone.regular hp
  others {u} hu := by
    refine find?_after_of_none alone.regular.consistent.size_pos hp (fun op hm => ?_)
      (alone.others hu)
    exact hu (hb u op hm)

/-- What becomes of a task that has the pool to itself and uses no page on loan. -/
inductive Proceeds (s : System) (t : TaskId) : Move → Prop
  | resumes (fault : Option Fault) : Proceeds s t (.resume t fault)
  | givenUp : Proceeds s t (.cancel t)
  | fills (content : Page) {stay : Stay} (hx : s.transferOf t = some ⟨.load, stay⟩) :
      Proceeds s t (.fill t content)
  | strikes {stay : Stay} (hx : s.transferOf t = some ⟨.writeBack, stay⟩) :
      Proceeds s t (.strike t)

theorem Alone.proceeds (alone : s.Alone t) (ht : s.tasks.find? t = some task)
    (hb : task.borrower? = none) (hp : s.Permits m) (inTurn : s.InTurn m = true) :
    s.Proceeds t m := by
  have busy (empty : s.tasks.entries.isEmpty = true) : False := by
    cases (Table.find?_of_isEmpty empty t).symm.trans ht
  have own {u : TaskId} {x : Transfer} (hx : s.transferOf u = some x) : t = u := by
    obtain ⟨task, hu, -⟩ := Option.bind_eq_some_iff.1 hx
    exact alone.eq_of_find? hu
  have unlent {u : TaskId} {k : HandleNo} {stay : Stay} {purpose : Access} {stage : AccessStage}
      (hu : s.tasks.find? u = some (.access k stay purpose stage)) : False := by
    obtain rfl := alone.eq_of_find? hu
    obtain rfl := Option.some.inj (hu.symm.trans ht)
    cases hb
  cases m with
  | resume u fault =>
    obtain ⟨task, hu, -⟩ := isReady_iff.1 hp
    obtain rfl := alone.eq_of_find? hu
    exact .resumes fault
  | cancel u =>
    obtain ⟨task, hu, -⟩ := hp
    obtain rfl := alone.eq_of_find? hu
    exact .givenUp
  | fill u content =>
    obtain ⟨-, stay, hx⟩ := hp
    obtain rfl := own hx
    exact .fills content hx
  | strike u =>
    obtain ⟨-, stay, hx⟩ := hp
    obtain rfl := own hx
    exact .strikes hx
  | abandon u =>
    obtain ⟨k, stay, purpose, stage, hu⟩ := hp
    exact (unlent hu).elim
  | edit u e =>
    obtain ⟨k, stay, e₀, hu⟩ := hp
    exact (unlent hu).elim
  | begin | markDirty | release | drop | detach | unpin => exact (busy inTurn).elim

def Single (s : System) : Prop := ∃ t, s.Alone t

theorem Single.quiescent (single : s.Single) (empty : s.tasks.entries.isEmpty = true) :
    s.Quiescent := by
  obtain ⟨t, alone⟩ := single
  exact alone.quiescent (Table.find?_of_isEmpty empty t)

theorem Single.move (single : s.Single) (hp : s.Permits m) (inTurn : s.InTurn m = true) :
    (s.after m).Single := by
  have ⟨t, alone⟩ := single
  cases m with
  | begin u op =>
    refine ⟨u, (single.quiescent inTurn).alone.move hp fun v op' hm => ?_⟩
    cases hm
    rfl
  | _ => exact ⟨t, alone.move hp nofun⟩

/-- Where one operation comes after the other, no page is loaded while it is about to be deleted. -/
theorem Single.not_revives (single : s.Single) (hp : s.Permits m) (inTurn : s.InTurn m = true) :
    s.Revives f p m = false := by
  obtain ⟨t, alone⟩ := single
  refine Bool.and_eq_false_imp.2 fun deleting => Bool.eq_false_iff.2 fun bringing => ?_
  obtain ⟨⟨u, old⟩, hu, deletes⟩ := List.any_eq_true.1 deleting
  obtain ⟨⟨v, task⟩, hv, brings⟩ := List.any_eq_true.1 bringing
  have hu : s.tasks.find? u = some old := (s.tasks.mem_entries_iff ..).1 hu
  have hv : (s.after m).tasks.find? v = some task := ((s.after m).tasks.mem_entries_iff ..).1 hv
  have delete : ∃ f' p', old = .delete f' p' := by
    cases old with
    | delete f' p' => exact ⟨f', p', rfl⟩
    | _ => cases deletes
  obtain ⟨f', p', rfl⟩ := delete
  have only {w : TaskId} {x : Task} (hw : s.tasks.find? w = some x) : x = .delete f' p' := by
    obtain rfl := (alone.eq_of_find? hu).symm.trans (alone.eq_of_find? hw)
    exact Option.some.inj (hw.symm.trans hu)
  rcases task_after alone.regular.consistent.size_pos hp hv with
    ⟨-, before⟩ | ⟨op, rfl, -⟩ | ⟨fault, x, rfl, before, course⟩
  · obtain rfl := only before
    cases brings
  · cases (Table.find?_of_isEmpty inTurn u).symm.trans hu
  · obtain rfl := only before
    cases course

theorem find?_of_result {fault : Option Fault} {r : Result}
    (hr : (s.resume t fault).2.2 = some r) : (s.after (.resume t fault)).tasks.find? t = none := by
  cases ht : s.tasks.find? t with
  | none => simp [resume, ht] at hr
  | some task =>
    rw [result_resume ht] at hr
    rw [find?_after_resume ht]
    cases h : (s.advance t fault task).2.2 with
    | goesOn => simp [h, Turn.result?] at hr
    | ends => rfl

/-! ### Reading a page on loan -/

/-- Whoever reads the page on loan under the handle now can do so, and gets to see `q`. -/
def ReadsAs (s : System) (k : HandleNo) (q : Page) : Prop :=
  ∃ x, s.handles.find? k = some x ∧ ∀ t,
    s.CanPlay [.begin t (.access k x.stay .read), .resume t none, .resume t none] ∧
      ((s.play [.begin t (.access k x.stay .read), .resume t none]).2.resume t none).2.2 =
        some (.content q)

theorem Quiescent.readsAs (still : s.Quiescent) {x : Handle} (hx : s.handles.find? k = some x)
    (hl : s.pool.ledger.stillLoading x.stay = .ok false) :
    s.ReadsAs k (s.pool.buffer x.stay.frame) := by
  refine ⟨x, hx, fun t => ?_⟩
  obtain ⟨begins, alone, ht⟩ := still.begin (still.admits_access hx .read) t
  have hl' : (s.begin t (.access k x.stay .read)).pool.ledger.stillLoading x.stay = .ok false := by
    rwa [ledger_begin]
  have entered : (s.begin t (.access k x.stay .read)).after (.resume t none) =
      (s.begin t (.access k x.stay .read)).setTask t (.access k x.stay .read .inside) := by
    rw [after, resume_fst ht]
    simp only [firstTask, advance, enter, hl']
    rfl
  have inside : ((s.begin t (.access k x.stay .read)).after (.resume t none)).tasks.find? t =
      some (.access k x.stay .read .inside) := by
    rw [entered]
    exact Table.find?_insert_self ..
  refine ⟨⟨begins, alone.isReady ht, (alone.resume ht none).isReady inside, trivial⟩, ?_⟩
  refine (result_resume inside).trans ?_
  rw [entered]
  rfl

end System

/-! ### Runs -/

section Run

variable {allowed : Move → Prop} {n : Nat} (hn : 0 < n) {c : Catalog} {h : History} {s : System}
  (run : Reaches allowed (.new n c) h s)
include hn run

theorem Reaches.single (inTurn : ∀ x ∈ h, x.1.InTurn x.2 = true) : s.Single := by
  induction run with
  | start => exact ⟨0, (System.Quiescent.new hn c).alone⟩
  | @move h s m run possible _ ih =>
    have before := ih fun x hx => inTurn x (List.mem_cons_of_mem _ hx)
    exact before.move possible (inTurn (s, m) List.mem_cons_self)

/-- Every page that is to be seen in a frame is one that its file has. -/
theorem Reaches.kept (inTurn : ∀ x ∈ h, x.1.InTurn x.2 = true) (f : FileNo) (p : PageNo) :
    s.Kept f p := by
  induction run with
  | start => exact .new n c f p
  | @move h s m run possible _ ih =>
    have earlier := fun x hx => inTurn x (List.mem_cons_of_mem _ hx)
    have last := inTurn (s, m) List.mem_cons_self
    exact (ih earlier).move (run.shared.regular hn) possible
      ((run.single hn earlier).not_revives possible last)

end Run

end SecondChance
