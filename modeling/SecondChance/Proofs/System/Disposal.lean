import SecondChance.Proofs.Store.Liveness
import SecondChance.Proofs.System.FileBacking
import SecondChance.Proofs.System.StepOutcomes
import SecondChance.Proofs.System.MoveEffects
import SecondChance.Proofs.System.Departures

/-!
Disposing of pages.

A page is disposed of in two steps: it is taken out of the pool if nobody has it, and then its file
deletes it. As long as nobody brings the page in again in between, it is not resident when it is
deleted, so every page that is there to be seen is one that its file has, and a number that is
handed out is not that of a page in a frame.

Somebody may ask for the page in between, and nothing keeps him from getting it: nobody looks a
second time whether the page is pinned. `System.Revives` is what must not happen, and the run at the
end shows what comes of it.
-/

namespace SecondChance

namespace Task

def deletes (f : FileNo) (p : PageNo) : Task → Bool
  | .delete f' p' => f' = f ∧ p' = p
  | _ => false

def brings (f : FileNo) (p : PageNo) (task : Task) : Bool :=
  task.transfer?.any fun x => x.kind = .load ∧ x.stay.file = f ∧ x.stay.page = p

end Task

theorem Ledger.Expels.find?_eq_none {l l' : Ledger} {key : PageKey} {file : String} {page : PageNo}
    (h : l.Expels key file page l' (.ok none)) : l'.table.find? key = none := by
  cases h with
  | absent hk => exact hk
  | emptied => exact Table.find?_erase_self ..

namespace System

variable {s : System} {m : Move} {t : TaskId} {fault : Option Fault} {f : FileNo} {p : PageNo}
  {i : FrameNo}

/-- Some task is about to delete the page, and after the move some task is loading it. -/
def Revives (s : System) (f : FileNo) (p : PageNo) (m : Move) : Bool :=
  s.tasks.entries.any (·.2.deletes f p) && (s.after m).tasks.entries.any (·.2.brings f p)

theorem revives_of_transferOf {u : TaskId} {stay : Stay}
    (ht : s.tasks.find? t = some (.delete stay.file stay.page))
    (hu : (s.after m).transferOf u = some ⟨.load, stay⟩) :
    s.Revives stay.file stay.page m = true := by
  obtain ⟨task, hu, hx⟩ := Option.bind_eq_some_iff.1 hu
  refine Bool.and_eq_true_iff.2 ⟨?_, ?_⟩ <;> refine List.any_eq_true.2 ?_
  · exact ⟨_, (Table.mem_entries_iff ..).2 ht, by simp [Task.deletes]⟩
  · exact ⟨_, (Table.mem_entries_iff ..).2 hu, by simp [Task.brings, hx]⟩

/-- A page that is about to be deleted is in no frame, and one that is to be seen in a frame is one
that its file has. -/
structure Kept (s : System) (f : FileNo) (p : PageNo) : Prop where
  gone {t : TaskId} (ht : s.tasks.find? t = some (.delete f p)) {i : FrameNo} {o : Occupant}
    (ho : s.pool.ledger.occupant? i = some o) : ¬ (o.file = f ∧ o.page = p)
  live {i : FrameNo} {o : Occupant} (ho : s.pool.ledger.occupant? i = some o)
    (hio : o.io ≠ .busy .load) (hf : o.file = f) (hp : o.page = p) : s.files.isLive f p = true

theorem Kept.new (n : Nat) (c : Catalog) (f : FileNo) (p : PageNo) : (System.new n c).Kept f p where
  gone ht := nomatch ht
  live {i o} ho := by
    cases (Ledger.occupant?_new n i).symm.trans ho

/-- No move but the deletion of the page takes it from its file. -/
theorem Does.isLive {s' : System} (d : s.Does m s') (hl : s.files.isLive f p = true)
    (hnd : ∀ t fault, m = .resume t fault → s.tasks.find? t ≠ some (.delete f p)) :
    s'.files.isLive f p = true := by
  unfold Does at d
  generalize s'.pool.ledger = l, s'.pool.buffers = b, s'.files = files at d ⊢
  cases d with
  | @load _ fault stay files r hx hr =>
    have kept : (s.files.read fault stay.file stay.page
        (.page (s.pool.buffer stay.frame))).1.isLive f p = true := Catalog.isLive_read hl
    rwa [hr] at kept
  | @save _ fault stay files r hx hr =>
    have kept : (s.files.write fault stay.file stay.page
        (.page (s.pool.buffer stay.frame))).1.isLive f p = true := Catalog.isLive_write hl
    rwa [hr] at kept
  | strike => exact Catalog.isLive_write hl
  | allocate => exact Catalog.isLive_allocate hl
  | @delete t fault file page ht =>
    refine Catalog.isLive_delete ?_ hl
    rintro ⟨rfl, rfl⟩
    exact hnd t fault rfl ht
  | _ => exact hl

section Move

variable (hs : s.Regular) (kept : s.Kept f p) (hp : s.Permits m) (hr : s.Revives f p m = false)
include hs kept hp hr

/-- After a move that revives nothing, a page that is about to be deleted is in no frame. -/
theorem Kept.gone_after (ht : (s.after m).tasks.find? t = some (.delete f p)) {i : FrameNo}
    {o' : Occupant} (ho' : (s.after m).pool.ledger.occupant? i = some o') :
    ¬ (o'.file = f ∧ o'.page = p) := by
  have hn := hs.consistent.size_pos
  have acts := acts_after hs.orderly hn hp
  rintro ⟨rfl, rfl⟩
  rcases task_after hn hp ht with ⟨-, before⟩ | ⟨op, -, hop⟩ | ⟨fault, old, rfl, before, course⟩
  · cases (does_after hn hp).origin hs ho' with
    | stayed ho hf hpage => exact kept.gone before ho ⟨hf.symm, hpage.symm⟩
    | loaded hm hx hread hi hstay =>
      obtain ⟨o, hat, -, hf, hpage⟩ := hs.escorted.occupantAt hx
      refine kept.gone before (Ledger.occupantAt_frame.1 hat).2 ⟨hf.trans ?_, hpage.trans ?_⟩
      · exact congrArg Stay.file hstay.symm
      · exact congrArg Stay.page hstay.symm
    | arrived hm hu hk hg hio =>
      obtain ⟨u, carried⟩ := (acts.regular hs).escorted.carried ho' hio
      cases hr.symm.trans (revives_of_transferOf before carried)
  · cases op <;> cases hop
  · -- The page has just been taken out.
    have found := (acts.regular hs).consistent.find?_key ho'
    cases course with
    | @expelled _ _ key look he =>
      obtain rfl : key = s.labels.key o'.file o'.page := hs.orderly.proper before
      rw [Occupant.key, acts.labels, ledger_resume before, advance, ledger_lookForExpel] at found
      generalize hl : s.pool.ledger.expel _ _ _ = r at he found
      obtain ⟨l, r⟩ := r
      obtain rfl : r = .ok none := he
      cases (Ledger.expel_cases hl).find?_eq_none.symm.trans found

omit hr in
theorem Kept.live_after {o' : Occupant} (ho' : (s.after m).pool.ledger.occupant? i = some o')
    (hio' : o'.io ≠ .busy .load) (hf' : o'.file = f) (hp' : o'.page = p) :
    (s.after m).files.isLive f p = true := by
  have hn := hs.consistent.size_pos
  have does := does_after hn hp
  -- Whoever deletes a page is sure that it is in no frame.
  have spared {o : Occupant} (ho : s.pool.ledger.occupant? i = some o) (hf : o.file = f)
      (hpage : o.page = p) (hl : s.files.isLive f p = true) :
      (s.after m).files.isLive f p = true :=
    does.isLive hl fun t fault _ ht => kept.gone ht ho ⟨hf, hpage⟩
  cases does.origin hs ho' with
  | stayed ho hf hpage hg hio =>
    have hf := hf.symm.trans hf'
    have hpage := hpage.symm.trans hp'
    exact spared ho hf hpage (kept.live ho (fun hl => hio' (hio.2 hl)) hf hpage)
  | @loaded t fault stay files q hm hx hread hi hstay =>
    subst hi
    obtain ⟨o, hat, -, hf, hpage⟩ := hs.escorted.occupantAt hx
    have hfile : stay.file = f := (congrArg Stay.file hstay.symm).trans hf'
    have hnumber : stay.page = p := (congrArg Stay.page hstay.symm).trans hp'
    have delivered := Catalog.isLive_of_read hread
    rw [hfile, hnumber] at delivered
    exact spared (Ledger.occupantAt_frame.1 hat).2 (hf.trans hfile) (hpage.trans hnumber) delivered
  | arrived hm ht hk hg hio => exact (hio' hio).elim

theorem Kept.move : (s.after m).Kept f p where
  gone ht := kept.gone_after hs hp hr ht
  live := kept.live_after hs hp

end Move

end System

/-- As long as nobody begins to load a page while it is about to be deleted: whoever is going to
delete it finds it in no frame, when it is to be seen in a frame its file has it, and when its
number is handed out no frame has it except one that is only just being loaded. -/
theorem disposed_pages_gone {n : Nat} (hn : 0 < n) {c : Catalog} (hd : c.Distinct) {h : History}
    {s : System} (run : Reaches (fun _ => True) (.new n c) h s) {f : FileNo}
    (hf : f < c.files.size) {p : PageNo} (unrevived : ∀ x ∈ h, x.1.Revives f p x.2 = false) :
    (∀ t, s.tasks.find? t = some (.delete f p) →
      s.pool.ledger.table.find? (s.labels.key f p) = none) ∧
    (∀ i o, s.pool.ledger.occupant? i = some o → o.io ≠ .busy .load → o.file = f → o.page = p →
      s.files.isLive f p = true) ∧
    ∀ fault, (s.files.allocate fault f).2 = .ok p → ∀ i o, s.pool.ledger.occupant? i = some o →
      o.file = f → o.page = p → o.io = .busy .load := by
  have hs := run.regular hn
  have kept : s.Kept f p := by
    induction run with
    | start => exact .new n c f p
    | @move h s m run possible kind ih =>
      have before := ih (fun x hx => unrevived x (List.mem_cons_of_mem _ hx)) (run.regular hn)
      exact before.move (run.regular hn) possible (unrevived (s, m) List.mem_cons_self)
  refine ⟨fun t ht => ?_, fun i o ho hio hof hop => kept.live ho hio hof hop,
    fun fault ha i o ho hof hop => ?_⟩
  · refine Option.eq_none_iff_forall_ne_some.2 fun i hk => ?_
    obtain ⟨o, ho, hkey⟩ := hs.consistent.occupant?_of_find? hk
    have opened := (run.shared.placed hn hd).opened ho
    have opened' : s.hasFile f := (run.shared.hasFile hn f).2 hf
    obtain ⟨rfl, rfl⟩ := (run.shared.distinct hn hd).key_inj opened opened' hkey
    exact kept.gone ht ho ⟨rfl, rfl⟩
  · have free := Catalog.not_isLive_of_allocate ha
    by_contra hio
    exact Bool.false_ne_true (free.symm.trans (kept.live ho hio hof hop))

/-- A page is given back, and then it is about to be disposed of. -/
def smallDisposal : List Move :=
  [.begin 0 (.allocate 0 0), .resume 0 none, .resume 0 none, .resume 0 none, .release 0,
    .begin 1 (.dispose 0 0), .resume 1 none]

theorem disposed_pages_gone_small : ∃ h s, Reaches (fun _ => True) .small h s ∧
    s.tasks.find? 1 = some (.delete 0 0) ∧
    s.pool.ledger.table.find? (s.labels.key 0 0) = none := by
  have run : Reaches (fun _ => True) .small (System.small.play smallDisposal).1
      (System.small.play smallDisposal).2 := by
    refine .play ⟨⟨rfl, Nat.zero_lt_one, rfl, nofun⟩, rfl, rfl, rfl, ⟨⟨_, rfl⟩, nofun⟩,
      ⟨rfl, Nat.zero_lt_one⟩, rfl, trivial⟩ fun _ _ => trivial
  refine ⟨_, _, run, rfl, ?_⟩
  exact (disposed_pages_gone Nat.zero_lt_one distinct_small run Nat.zero_lt_one
    (by decide)).1 1 rfl

/-- Somebody asks for the page before it is deleted. It is deleted all the same, although it is in a
frame and pinned, and its number is handed out again. -/
theorem resident_page_deleted : ∃ h s, Reaches (fun _ => True) .small h s ∧
    s.tasks.find? 1 = some (.delete 0 0) ∧ s.isReady 1 = true ∧
    s.pool.ledger.occupant? 0 = some ⟨0, 0, 1, true, false, .idle⟩ ∧
    (s.resume 1 none).2.2 = some .done ∧ (s.after (.resume 1 none)).files.isLive 0 0 = false ∧
    ((s.after (.resume 1 none)).files.allocate none 0).2 = .ok 0 := by
  have run : Reaches (fun _ => True) .small
      (System.small.play (smallDisposal ++
        [.begin 2 (.fetch 0 0 1), .resume 2 none, .resume 2 none])).1
      (System.small.play (smallDisposal ++
        [.begin 2 (.fetch 0 0 1), .resume 2 none, .resume 2 none])).2 := by
    refine .play ⟨⟨rfl, Nat.zero_lt_one, rfl, nofun⟩, rfl, rfl, rfl, ⟨⟨_, rfl⟩, nofun⟩,
      ⟨rfl, Nat.zero_lt_one⟩, rfl, ⟨rfl, Nat.zero_lt_one, rfl, ?_⟩, rfl, rfl, trivial⟩
      fun _ _ => trivial
    decide
  exact ⟨_, _, run, rfl, rfl, rfl, rfl, rfl, rfl⟩

end SecondChance
