import SecondChance.Proofs.Store.Calls
import SecondChance.Proofs.System.AtomicActs

/-!
The order that tasks and handles are in.

Every task knows what it is about, a handle that is still to be filled is in nobody's hands and is
filled by one task only, and whoever uses a page on loan has a handle for it. No act disturbs this,
and no act changes what files answer about themselves.
-/

namespace SecondChance

namespace Task

theorem handle?_eq {task : Task} {h : HandleNo} :
    task.handle? = some h ↔ task.filling? = some h ∨ task.borrower? = some h := by
  cases task <;> simp [handle?, filling?, borrower?]

theorem IsPlain.ne_access {task : Task} (hp : task.IsPlain) (h : HandleNo) (stay : Stay)
    (purpose : Access) (stage : AccessStage) : task ≠ .access h stay purpose stage := by
  rintro rfl
  exact nomatch hp.borrower?

theorem ne_access_of_transfer? {task : Task} {x : Transfer} (hx : task.transfer? = some x)
    (h : HandleNo) (stay : Stay) (purpose : Access) (stage : AccessStage) :
    task ≠ .access h stay purpose stage := by
  rintro rfl
  exact nomatch hx

theorem follows_fetch (labels : Labels) (file : FileNo) (page : PageNo) (h : HandleNo)
    (written written' : Option Stay) (stage stage' : Stage) :
    Follows labels (.fetch file page h written stage) (.fetch file page h written' stage') :=
  ⟨trivial, rfl, rfl, rfl⟩

theorem follows_access (labels : Labels) (h : HandleNo) (stay : Stay) (purpose : Access)
    (stage stage' : AccessStage) :
    Follows labels (.access h stay purpose stage) (.access h stay purpose stage') :=
  ⟨trivial, rfl, rfl, rfl⟩

end Task

namespace System

theorem isUnused_iff {s : System} {h : HandleNo} :
    s.IsUnused h ↔ ∀ t task, s.tasks.find? t = some task →
      task.filling? ≠ some h ∧ task.borrower? ≠ some h := by
  constructor
  · intro hu t task ht
    have hne := hu (t, task) ((s.tasks.mem_entries_iff t task).2 ht)
    exact ⟨fun hf => hne (Task.handle?_eq.2 (.inl hf)), fun hb => hne (Task.handle?_eq.2 (.inr hb))⟩
  · rintro hu ⟨t, task⟩ he hh
    obtain ⟨hf, hb⟩ := hu t task ((s.tasks.mem_entries_iff t task).1 he)
    exact (Task.handle?_eq.1 hh).elim hf hb

theorem of_find?_setTask {s : System} {t u : TaskId} {task x : Task}
    (hx : (s.setTask t task).tasks.find? u = some x) :
    t = u ∧ task = x ∨ t ≠ u ∧ s.tasks.find? u = some x := by
  rw [setTask, Table.find?_insert] at hx
  split at hx
  · next hu => exact .inl ⟨hu, Option.some.inj hx⟩
  · next hu => exact .inr ⟨hu, hx⟩

theorem of_find?_endTask {s : System} {t u : TaskId} {x : Task}
    (hx : (s.endTask t).tasks.find? u = some x) : t ≠ u ∧ s.tasks.find? u = some x := by
  rw [endTask, Table.find?_erase] at hx
  split at hx
  · cases hx
  · next hu => exact ⟨hu, hx⟩

theorem find?_lendTo (s : System) (h h' : HandleNo) (stay : Stay) :
    (s.lendTo h stay).handles.find? h' =
      if h = h' then some ⟨stay, false⟩ else s.handles.find? h' := Table.find?_insert ..

theorem find?_detach (s : System) (h h' : HandleNo) :
    (s.detach h).handles.find? h' = if h = h' then none else s.handles.find? h' :=
  Table.find?_erase ..

theorem find?_markDirty (s : System) (h h' : HandleNo) :
    (s.markDirty h).handles.find? h' =
      if h = h' then (s.handles.find? h').map (fun x => { x with dirty := true })
      else s.handles.find? h' := Table.find?_modify ..

section OldHandles

variable {s : System} {h h' : HandleNo} {x : Handle}

theorem find?_lendTo_of_old (hh : s.handles.find? h = none) (hh' : s.handles.find? h' = some x)
    (stay : Stay) : (s.lendTo h stay).handles.find? h' = some x := by
  rw [find?_lendTo, if_neg, hh']
  rintro rfl
  rw [hh] at hh'
  cases hh'

theorem find?_detach_of_ne (hne : h ≠ h') : (s.detach h).handles.find? h' = s.handles.find? h' := by
  rw [find?_detach, if_neg hne]

theorem find?_markDirty_of_dirty (hh : s.handles.find? h' = some x) (hd : x.dirty = true) :
    (s.markDirty h).handles.find? h' = some x := by
  rw [find?_markDirty, hh]
  split
  · rw [Option.map_some, ← hd]
  · rfl

theorem of_find?_lendTo {stay : Stay} (hx : (s.lendTo h stay).handles.find? h' = some x) :
    stay = x.stay ∨ ∃ y, s.handles.find? h' = some y ∧ y.stay = x.stay := by
  rw [find?_lendTo] at hx
  split at hx
  · exact .inl (congrArg Handle.stay (Option.some.inj hx))
  · exact .inr ⟨x, hx, rfl⟩

theorem of_find?_detach (hx : (s.detach h).handles.find? h' = some x) :
    ∃ y, s.handles.find? h' = some y ∧ y.stay = x.stay := by
  rw [find?_detach] at hx
  split at hx
  · cases hx
  · exact ⟨x, hx, rfl⟩

theorem of_find?_markDirty (hx : (s.markDirty h).handles.find? h' = some x) :
    ∃ y, s.handles.find? h' = some y ∧ y.stay = x.stay := by
  rw [find?_markDirty] at hx
  split at hx
  · obtain ⟨y, hy, rfl⟩ := Option.map_eq_some_iff.1 hx
    exact ⟨y, hy, rfl⟩
  · exact ⟨x, hx, rfl⟩

end OldHandles

/-- Tasks expel pages under the right keys, and want pages of open files only. A handle that a task
will fill is not there yet and is filled by no other task, and whoever uses a page has the handle
under which it was lent. -/
structure Orderly (s : System) : Prop where
  proper {t : TaskId} {task : Task} (ht : s.tasks.find? t = some task) : task.IsProper s.labels
  target {t : TaskId} {task : Task} {f : FileNo} (ht : s.tasks.find? t = some task)
    (hf : task.target? = some f) : s.hasFile f
  unfilled {t : TaskId} {task : Task} {h : HandleNo} (ht : s.tasks.find? t = some task)
    (hf : task.filling? = some h) : s.handles.find? h = none
  filling_inj {t t' : TaskId} {task task' : Task} {h : HandleNo} (ht : s.tasks.find? t = some task)
    (ht' : s.tasks.find? t' = some task') (hf : task.filling? = some h)
    (hf' : task'.filling? = some h) : t = t'
  borrowed {t : TaskId} {h : HandleNo} {stay : Stay} {purpose : Access} {stage : AccessStage}
    (ht : s.tasks.find? t = some (.access h stay purpose stage)) :
    ∃ d, s.handles.find? h = some ⟨stay, d⟩

namespace Orderly

variable {s s' : System}

theorem new (n : Nat) (c : Catalog) : (System.new n c).Orderly where
  proper ht := nomatch ht
  target ht := nomatch ht
  unfilled ht := nomatch ht
  filling_inj ht := nomatch ht
  borrowed ht := nomatch ht

theorem congr (h : s.Orderly) (ht : s'.tasks = s.tasks) (hh : s'.handles = s.handles)
    (hr : s'.files.registry = s.files.registry) : s'.Orderly where
  proper := by
    show ∀ {t task}, _ → Task.IsProper s'.files.labels task
    rw [ht, Catalog.labels_of_registry hr]
    exact h.proper
  target := by
    show ∀ {t task f}, _ → _ → f < s'.files.files.size
    rw [ht, Catalog.size_of_registry hr]
    exact h.target
  unfilled := by rw [ht, hh]; exact h.unfilled
  filling_inj := by rw [ht]; exact h.filling_inj
  borrowed := by rw [ht, hh]; exact h.borrowed

theorem setTask (o : s.Orderly) {t : TaskId} {task : Task} (hp : task.IsProper s.labels)
    (ht : ∀ f, task.target? = some f → s.hasFile f)
    (hf : ∀ h, task.filling? = some h → s.handles.find? h = none ∧
      ∀ t' task', s.tasks.find? t' = some task' → task'.filling? = some h → t' = t)
    (hb : ∀ h stay purpose stage, task = .access h stay purpose stage →
      ∃ d, s.handles.find? h = some ⟨stay, d⟩) : (s.setTask t task).Orderly := by
  constructor
  case proper =>
    intro u x hx
    rcases of_find?_setTask hx with ⟨rfl, rfl⟩ | ⟨-, hx⟩
    · exact hp
    · exact o.proper hx
  case target =>
    intro u x f hx hxf
    rcases of_find?_setTask hx with ⟨rfl, rfl⟩ | ⟨-, hx⟩
    · exact ht f hxf
    · exact o.target hx hxf
  case unfilled =>
    intro u x h hx hxf
    rcases of_find?_setTask hx with ⟨rfl, rfl⟩ | ⟨-, hx⟩
    · exact (hf h hxf).1
    · exact o.unfilled hx hxf
  case filling_inj =>
    intro u u' x x' h hx hx' hxf hxf'
    rcases of_find?_setTask hx with ⟨rfl, rfl⟩ | ⟨hu, hx⟩
    · rcases of_find?_setTask hx' with ⟨rfl, rfl⟩ | ⟨hu', hx'⟩
      · rfl
      · exact ((hf h hxf).2 u' x' hx' hxf').symm
    · rcases of_find?_setTask hx' with ⟨rfl, rfl⟩ | ⟨hu', hx'⟩
      · exact (hf h hxf').2 u x hx hxf
      · exact o.filling_inj hx hx' hxf hxf'
  case borrowed =>
    intro u h stay purpose stage hx
    rcases of_find?_setTask hx with ⟨-, he⟩ | ⟨-, hx⟩
    · exact hb h stay purpose stage he
    · exact o.borrowed hx

theorem follow (o : s.Orderly) {t : TaskId} {task task' : Task} (ht : s.tasks.find? t = some task)
    (hn : task.Follows s.labels task')
    (hb : ∀ h stay purpose stage, task' = .access h stay purpose stage →
      ∃ purpose stage, task = .access h stay purpose stage) : (s.setTask t task').Orderly := by
  refine o.setTask hn.proper (fun f hf => ?_) (fun h hf => ?_) (fun h stay p g he => ?_)
  · rw [hn.target?] at hf
    exact o.target ht hf
  · rw [hn.filling?] at hf
    exact ⟨o.unfilled ht hf, fun _ _ ht' hf' => o.filling_inj ht' ht hf' hf⟩
  · obtain ⟨p', g', rfl⟩ := hb h stay p g he
    exact o.borrowed ht

theorem endTask (o : s.Orderly) (t : TaskId) : (s.endTask t).Orderly := by
  have find {u : TaskId} {x : Task} (hx : (s.endTask t).tasks.find? u = some x) :
      s.tasks.find? u = some x := (of_find?_endTask hx).2
  exact ⟨fun hx => o.proper (find hx), fun hx => o.target (find hx), fun hx => o.unfilled (find hx),
    fun hx hx' => o.filling_inj (find hx) (find hx'), fun hx => o.borrowed (find hx)⟩

theorem lend (o : s.Orderly) {t : TaskId} {task : Task} {h : HandleNo} {stay : Stay}
    (ht : s.tasks.find? t = some task) (hf : task.filling? = some h) :
    ((s.lendTo h stay).endTask t).Orderly := by
  have find {u : TaskId} {x : Task} (hx : ((s.lendTo h stay).endTask t).tasks.find? u = some x) :
      t ≠ u ∧ s.tasks.find? u = some x := of_find?_endTask hx
  have handles (h' : HandleNo) : ((s.lendTo h stay).endTask t).handles.find? h' =
      if h = h' then some ⟨stay, false⟩ else s.handles.find? h' := find?_lendTo ..
  refine ⟨fun hx => o.proper (find hx).2, fun hx => o.target (find hx).2, ?_,
    fun hx hx' => o.filling_inj (find hx).2 (find hx').2, ?_⟩
  · intro u x h' hx hxf
    obtain ⟨hu, hx⟩ := find hx
    rw [handles, if_neg, o.unfilled hx hxf]
    rintro rfl
    exact hu (o.filling_inj ht hx hf hxf)
  · intro u h' stay' purpose stage hx
    obtain ⟨d, hd⟩ := o.borrowed (find hx).2
    rw [handles, if_neg]
    · exact ⟨d, hd⟩
    · rintro rfl
      rw [o.unfilled ht hf] at hd
      cases hd

theorem detach (o : s.Orderly) {h : HandleNo} (hu : s.IsUnused h) : (s.detach h).Orderly := by
  refine ⟨o.proper, o.target, ?_, o.filling_inj, ?_⟩
  · intro t task h' ht hf
    rw [find?_detach, o.unfilled ht hf, ite_self]
  · intro t h' stay purpose stage ht
    rw [find?_detach, if_neg]
    · exact o.borrowed ht
    · rintro rfl
      exact (isUnused_iff.1 hu t _ ht).2 rfl

theorem markDirty (o : s.Orderly) (h : HandleNo) : (s.markDirty h).Orderly := by
  refine ⟨o.proper, o.target, ?_, o.filling_inj, ?_⟩
  · intro t task h' ht hf
    rw [find?_markDirty, o.unfilled ht hf, Option.map_none, ite_self]
  · intro t h' stay purpose stage ht
    obtain ⟨d, hd⟩ := o.borrowed ht
    rw [find?_markDirty, hd]
    split
    · exact ⟨true, rfl⟩
    · exact ⟨d, rfl⟩

end Orderly

theorem Act.registry {s s' : System} {ks : List Mark} (a : Act s ks s') :
    s'.files.registry = s.files.registry := by
  cases a with
  | loaded _ hr =>
    have h := Catalog.registry_read s.files
    exact (congrArg (fun p => p.1.registry) hr).symm.trans (h ..)
  | wrote _ _ hr =>
    have h := Catalog.registry_write s.files
    exact (congrArg (fun p => p.1.registry) hr).symm.trans (h ..)
  | read => exact Catalog.registry_read ..
  | write => exact Catalog.registry_write ..
  | allocate => exact Catalog.registry_allocate ..
  | delete => exact Catalog.registry_delete ..
  | sync => exact Catalog.registry_sync ..
  | @enter _ _ _ purpose => cases purpose <;> rfl
  | _ => rfl

theorem Act.labels {s s' : System} {ks : List Mark} (a : Act s ks s') : s'.labels = s.labels :=
  Catalog.labels_of_registry a.registry

theorem Acts.registry {s s' : System} {ks : List Mark} (a : Acts s ks s') :
    s'.files.registry = s.files.registry := by
  induction a with
  | done => rfl
  | more first _ ih => exact ih.trans first.registry

theorem Acts.labels {s s' : System} {ks : List Mark} (a : Acts s ks s') : s'.labels = s.labels :=
  Catalog.labels_of_registry a.registry

theorem Act.hasFile {s s' : System} {ks : List Mark} (a : Act s ks s') (f : FileNo) :
    s'.hasFile f ↔ s.hasFile f := by
  rw [System.hasFile, System.hasFile, Catalog.size_of_registry a.registry]

/-- Every act keeps a system orderly. -/
theorem Orderly.act {s s' : System} {ks : List Mark} (o : s.Orderly) (a : Act s ks s') :
    s'.Orderly := by
  have hr := a.registry
  cases a with
  | ease | expel | latch | fill | read | write | allocate | delete | sync | edit | unpin =>
    exact o.congr rfl rfl hr
  | start ht hp hv hf hh =>
    refine o.setTask hv hf (fun h hfill => ?_) fun h stay purpose stage he => ?_
    · obtain ⟨hn, hu⟩ := hh h hfill
      exact ⟨hn, fun _ _ ht' hf' => ((isUnused_iff.1 hu _ _ ht').1 hf').elim⟩
    · exact (hp.ne_access _ _ _ _ he).elim
  | turn ht hp hp' hn => exact o.follow ht hn fun _ _ _ _ he => (hp'.ne_access _ _ _ _ he).elim
  | stop | lost | unwritten | quit => exact (o.endTask _).congr rfl rfl hr
  | hit ht | loaded ht => exact (o.lend ht rfl).congr rfl rfl hr
  | install ht => exact (o.follow ht (Task.follows_fetch ..) nofun).congr rfl rfl hr
  | claim ht hp ho hio hd hx hn =>
    refine (o.follow ht hn fun _ _ _ _ he => ?_).congr rfl rfl hr
    exact (Task.ne_access_of_transfer? hx _ _ _ _ he).elim
  | wrote ht hx hc hp hn =>
    exact (o.follow ht hn fun _ _ _ _ he => (hp.ne_access _ _ _ _ he).elim).congr rfl rfl hr
  | borrow purpose ht hh =>
    refine o.setTask trivial nofun nofun ?_
    rintro _ _ _ _ ⟨⟩
    exact ⟨_, hh⟩
  | queue ht =>
    refine o.follow ht (Task.follows_access ..) ?_
    rintro _ _ _ _ ⟨⟩
    exact ⟨_, _, rfl⟩
  | @enter t h stay purpose stage ht =>
    have ho : (s.setTask t (.access h stay purpose .inside)).Orderly := by
      refine o.follow ht (Task.follows_access ..) ?_
      rintro _ _ _ _ ⟨⟩
      exact ⟨_, _, rfl⟩
    cases purpose with
    | read => exact ho
    | write => exact ho.markDirty h
  | giveBack hh hu | detach hh hu => exact (o.detach hu).congr rfl rfl hr
  | markDirty h => exact o.markDirty h

end System

end SecondChance
