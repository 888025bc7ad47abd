import SecondChance.Proofs.System.UndisturbedFetch

/-!
Fetches that fail.

A fetch fails in three ways. No frame can be had for the page, or the page in the way cannot be
written, or the page itself cannot be read. When it looks for a frame it has just seen that the page
is not resident, and a page that could not be read leaves its frame at once. So in the first and in
the third case the page is in no frame afterwards.

In the second case nobody has looked again. While the other page was being written somebody else may
have asked for the same page and been luckier with a frame, and then the fetch fails with the page
before its eyes. `System.Overtakes` is what must not happen, and the run at the end shows what comes
of it.
-/

namespace SecondChance

/-- The task is fetching the page, and writes another one back to make room for it. -/
def Task.clearsFor (f : FileNo) (p : PageNo) : Task → Bool
  | .fetch f' p' _ _ (.move x) => f' = f ∧ p' = p ∧ x.kind = .writeBack
  | _ => false

namespace System

variable {s : System} {m : Move} {t : TaskId} {fault : Option Fault} {f : FileNo} {p : PageNo}
  {k : HandleNo} {w : Option Stay} {stage : Stage}

/-- The page is given a frame in the move, while task `t` writes another one back to make room for
it. -/
def Overtakes (s : System) (t : TaskId) (f : FileNo) (p : PageNo) (m : Move) : Bool :=
  (s.tasks.find? t).any (·.clearsFor f p) &&
    (s.installed? m).any fun stay => stay.file = f ∧ stay.page = p

theorem Regular.lacks_of_absent (hs : s.Regular)
    (hk : s.pool.ledger.table.find? (s.labels.key f p) = none) : s.Lacks f p := by
  rintro i o ho ⟨rfl, rfl⟩
  cases hk.symm.trans (hs.consistent.find?_key ho)

theorem Regular.absent_of_lacks (hs : s.Regular) (placed : s.Placed) (hd : s.files.Distinct)
    (hf : s.hasFile f) (lacks : s.Lacks f p) :
    s.pool.ledger.table.find? (s.labels.key f p) = none := by
  refine Option.eq_none_iff_forall_ne_some.2 fun i hk => ?_
  obtain ⟨o, ho, hkey⟩ := hs.consistent.occupant?_of_find? hk
  exact lacks i o ho (hd.key_inj (placed.opened ho) hf hkey)

/-- A page comes into a frame only by being given one. -/
theorem lacks_after (hs : s.Regular) (hp : s.Permits m) (lacks : s.Lacks f p)
    (hi : ∀ stay, s.installed? m = some stay → ¬ (stay.file = f ∧ stay.page = p)) :
    (s.after m).Lacks f p := by
  rintro i o' ho' ⟨rfl, rfl⟩
  cases he : s.ended? m with
  | none =>
    cases fate_after hs hp he ho' with
    | arrived ha => exact hi _ ha ⟨rfl, rfl⟩
    | stayed ho hg alters =>
      obtain ⟨hf, hpage⟩ := alters.file_page
      exact lacks i _ ho ⟨hf.symm, hpage.symm⟩
  | some x =>
    obtain ⟨x, ok⟩ := x
    obtain ⟨-, o, ho, ⟨-, rfl⟩ | ⟨-, -, ⟨-, rfl⟩ | ⟨-, -, rfl⟩⟩⟩ := hs.of_ended he ho'
    all_goals exact lacks i _ ho ⟨rfl, rfl⟩

/-- The task fetches the page. While it writes back another one the page is in no frame, and what it
loads is the page. -/
structure Pursuit (s : System) (f : FileNo) (p : PageNo) (task : Task) : Prop where
  fetches : ∃ k w stage, task = .fetch f p k w stage
  clearing (hc : task.clearsFor f p = true) : s.Lacks f p
  loading {stay : Stay} (hx : task.transfer? = some ⟨.load, stay⟩) : stay.file = f ∧ stay.page = p

theorem pursuit_of_look {look : Option Ticket} :
    s.Pursuit f p (.fetch f p k w (.look look)) where
  fetches := ⟨k, w, _, rfl⟩
  clearing hc := nomatch hc
  loading hx := nomatch hx

theorem pursuit_of_resume (hs : s.Regular) (hp : s.Permits (.resume t fault)) {task : Task}
    (before : s.tasks.find? t = some (.fetch f p k w stage))
    (ht : (s.after (.resume t fault)).tasks.find? t = some task) :
    (s.after (.resume t fault)).Pursuit f p task := by
  have hn := hs.consistent.size_pos
  have acts := acts_after hs.orderly hn hp
  have find := (find?_after_resume before fault).symm.trans ht
  have ledger := ledger_resume before fault
  cases stage with
  | move x =>
    -- After the end of a transfer it looks again.
    simp only [advance, moveForFetch] at find
    split at find <;> cases find
    exact pursuit_of_look
  | look look =>
    obtain ⟨l, r, ha⟩ : ∃ l r, s.pool.ledger.acquire s.labels f p w = (l, r) := ⟨_, _, rfl⟩
    simp only [advance, lookForFetch, ha] at find ledger
    cases Ledger.acquire_cases hn ha with
    | hit | astray | exhausted => cases find
    | wait =>
      obtain rfl := Option.some.inj find
      exact pursuit_of_look
    | @load m i =>
      obtain rfl := Option.some.inj find
      refine ⟨⟨k, none, _, rfl⟩, fun hc => ?_, fun {stay} hx => ?_⟩
      · simp [startTransfer, Task.clearsFor] at hc
      · obtain rfl : (⟨f, p, i, m.generation i + 1⟩ : Stay) = stay :=
          congrArg Transfer.stay (Option.some.inj hx)
        exact ⟨rfl, rfl⟩
    | writeBack hk hm =>
      obtain rfl := Option.some.inj find
      refine ⟨⟨k, none, _, rfl⟩, fun _ => (acts.regular hs).lacks_of_absent ?_, fun hx => ?_⟩
      · rw [ledger, acts.labels]
        exact hm.find?_eq_none hk
      · cases hx

/-- A task, as long as it is there, fetches the page. -/
def Pursues (s : System) (t : TaskId) (f : FileNo) (p : PageNo) : Prop :=
  ∀ task, s.tasks.find? t = some task → s.Pursuit f p task

theorem Pursues.move (h : s.Pursues t f p) (hs : s.Regular) (hp : s.Permits m)
    (hb : ¬ m.Begins t) (ho : s.Overtakes t f p m = false) : (s.after m).Pursues t f p := by
  intro task ht
  rcases task_after hs.consistent.size_pos hp ht with
    ⟨-, before⟩ | ⟨op, rfl, -⟩ | ⟨fault, old, rfl, before, -⟩
  · have pursuit := h task before
    refine ⟨pursuit.fetches, fun hc => ?_, pursuit.loading⟩
    refine lacks_after hs hp (pursuit.clearing hc) fun stay hi hst => ?_
    simp [Overtakes, before, hc, hi, hst] at ho
  · exact (hb rfl).elim
  · obtain ⟨k, w, stage, rfl⟩ := (h old before).fetches
    exact pursuit_of_resume hs hp before ht

theorem lacks_of_look_failed {look : Option Ticket} {e : PoolError} (hs : s.Regular)
    (hp : s.Permits (.resume t fault))
    (ht : s.tasks.find? t = some (.fetch f p k w (.look look)))
    (failed : (s.resume t fault).2.2 = some (.refused e)) :
    (s.after (.resume t fault)).Lacks f p ∧ e = .exhausted s.pool.ledger.size := by
  have hn := hs.consistent.size_pos
  have acts := acts_after hs.orderly hn hp
  have ledger := ledger_resume ht fault
  rw [result_resume ht] at failed
  obtain ⟨l, r, ha⟩ : ∃ l r, s.pool.ledger.acquire s.labels f p w = (l, r) := ⟨_, _, rfl⟩
  simp only [advance, lookForFetch, ha] at failed ledger
  cases Ledger.acquire_cases hn ha with
  | hit | load | writeBack | wait => cases failed
  | astray hk ho => exact (hs.consistent.occupant?_ne_none hk ho).elim
  | exhausted hk hm =>
    cases failed
    refine ⟨(acts.regular hs).lacks_of_absent ?_, rfl⟩
    rw [ledger, acts.labels]
    exact hm.find?_eq_none hk

theorem ended_of_move_failed {x : Transfer} {e : PoolError}
    (ht : s.tasks.find? t = some (.fetch f p k w (.move x)))
    (failed : (s.resume t fault).2.2 = some (.refused e)) :
    s.ended? (.resume t fault) = some (x, false) ∧ ∃ e', e = .store e' := by
  have ok := s.isOk_finishTransfer t x fault
  have ended : s.ended? (.resume t fault) = some (x, s.succeeds x fault) := by
    rw [ended?, transferOf_eq ht]
    rfl
  rw [result_resume ht] at failed
  simp only [advance, moveForFetch] at failed
  split at failed
  · next e' hr =>
    cases failed
    rw [hr] at ok
    exact ⟨ended.trans (by rw [← ok]; rfl), e', rfl⟩
  · cases failed
  · cases failed

theorem lacks_of_load_failed (hs : s.Regular) {stay : Stay}
    (hx : s.transferOf t = some ⟨.load, stay⟩)
    (he : s.ended? m = some (⟨.load, stay⟩, false)) :
    (s.after m).Lacks stay.file stay.page := by
  rintro i o' ho' ⟨hf', hp'⟩
  obtain ⟨-, o, ho, ⟨hne, rfl⟩ | ⟨-, -, ⟨hok, -⟩ | ⟨-, hkind, -⟩⟩⟩ := hs.of_ended he ho'
  · obtain ⟨q, hq, -, hf, hp⟩ := hs.escorted.occupantAt hx
    refine hne (hs.consistent.frame_inj (Ledger.occupantAt_frame.1 hq).2 ho ?_)
    rw [Occupant.key, Occupant.key, hf, hp, hf', hp']
  · cases hok
  · cases hkind

/-- A fetch that fails leaves its page out of the pool. -/
theorem Pursues.failed {e : PoolError} (h : s.Pursues t f p) (hs : s.Regular)
    (hp : s.Permits (.resume t fault))
    (failed : (s.resume t fault).2.2 = some (.refused e)) :
    (s.after (.resume t fault)).Lacks f p ∧
      (e = .exhausted s.pool.ledger.size ∨ ∃ e', e = .store e') := by
  obtain ⟨task, ht, -⟩ := isReady_iff.1 hp
  have pursuit := h task ht
  obtain ⟨k, w, stage, rfl⟩ := pursuit.fetches
  cases stage with
  | look => exact (lacks_of_look_failed hs hp ht failed).imp_right .inl
  | move x =>
    obtain ⟨ended, store⟩ := ended_of_move_failed ht failed
    refine ⟨?_, .inr store⟩
    obtain ⟨kind, stay⟩ := x
    cases kind with
    | load =>
      obtain ⟨rfl, rfl⟩ := pursuit.loading rfl
      exact lacks_of_load_failed hs (transferOf_eq ht) ended
    | writeBack =>
      have lacks : s.Lacks f p := pursuit.clearing (by simp [Task.clearsFor])
      refine lacks_after hs hp lacks fun stay hi => ?_
      simp [installed?, answer?, ht] at hi

end System

/-- Once a fetch has looked for its page, its task pursues the page in every later state, as long as
nobody overtakes it. -/
theorem ReachesShared.pursues {n : Nat} (hn : 0 < n) {c : Catalog} {h₀ : History} {s₀ : System}
    (run : ReachesShared (fun _ => True) (.new n c) h₀ s₀) {t : TaskId} {f : FileNo} {p : PageNo}
    {k : HandleNo} {w : Option Stay} {look : Option Ticket}
    (looks : s₀.tasks.find? t = some (.fetch f p k w (.look look))) {h : History} {s : System}
    (since : ReachesShared (fun m => ¬ m.Begins t) s₀ h s)
    (unovertaken : ∀ x ∈ h, x.1.Overtakes t f p x.2 = false) : s.Pursues t f p := by
  induction since with
  | start =>
    intro task ht
    obtain rfl := Option.some.inj (looks.symm.trans ht)
    exact System.pursuit_of_look
  | @move h s m since possible unbegun ih =>
    have hs := (run.append (since.mono fun _ _ => trivial)).regular hn
    have before := ih fun x hx => unovertaken x (List.mem_cons_of_mem _ hx)
    exact before.move hs possible unbegun (unovertaken (s, m) List.mem_cons_self)
  | others _ _ ih =>
    exact fun task ht => ⟨(ih unovertaken task ht).fetches, (ih unovertaken task ht).clearing,
      (ih unovertaken task ht).loading⟩

/-- Whenever a fetch fails, the page that it was asked for is in no frame and not in the table,
unless the page was given a frame while the fetch was writing back another one. The fetch may be one
that was asked for as such or the second half of an allocation: what counts is that it looked for
the page in `s₀`. It does not matter what else was done since, what was refused or failed or was
given up, nor who else used the files. -/
theorem failed_fetches_leave_page_out {n : Nat} (hn : 0 < n) {c : Catalog} (hd : c.Distinct)
    {h₀ : History} {s₀ : System} (run : ReachesShared (fun _ => True) (.new n c) h₀ s₀) {t : TaskId}
    {f : FileNo} {p : PageNo} {k : HandleNo} {w : Option Stay} {look : Option Ticket}
    (looks : s₀.tasks.find? t = some (.fetch f p k w (.look look))) {h : History} {s : System}
    (since : ReachesShared (fun m => ¬ m.Begins t) s₀ h s) {fault : Option Fault}
    (ready : s.Permits (.resume t fault)) {e : PoolError}
    (failed : (s.resume t fault).2.2 = some (.refused e))
    (unovertaken : ∀ x ∈ h, x.1.Overtakes t f p x.2 = false) :
    (s.after (.resume t fault)).Lacks f p ∧
      (s.after (.resume t fault)).pool.ledger.table.find? (c.labels.key f p) = none ∧
      (e = .exhausted n ∨ ∃ e', e = .store e') := by
  have pursues := run.pursues hn looks since unovertaken
  have before : ReachesShared (fun _ => True) (.new n c) (h ++ h₀) s :=
    run.append (since.mono fun _ _ => trivial)
  have after := before.move ready trivial
  obtain ⟨lacks, cause⟩ := pursues.failed (before.regular hn) ready failed
  rw [(before.watched hn).size] at cause
  refine ⟨lacks, ?_, cause⟩
  have opened : s₀.hasFile f := (run.regular hn).orderly.target looks rfl
  have absent := (after.regular hn).absent_of_lacks (after.placed hn hd) (after.distinct hn hd)
    ((after.hasFile hn f).2 ((run.hasFile hn f).1 opened)) lacks
  rwa [System.labels, Catalog.labels_of_registry (after.registry hn)] at absent

/-- A page is changed and given back, and another is asked for. -/
def smallAsked : List Move := smallChanged ++ [.begin 1 (.fetch 0 1 1)]

/-- A fetch claims the dirty page in the only frame, cannot write it and fails, and the page it was
asked for is in no frame. -/
theorem failed_fetches_leave_page_out_small : ∃ h s, Reaches (fun _ => True) .small h s ∧
    s.Permits (.resume 1 (some (.io "gone"))) ∧
    (s.resume 1 (some (.io "gone"))).2.2 = some (.refused (.store (.io (.reported "gone")))) ∧
    (s.after (.resume 1 (some (.io "gone")))).Lacks 0 1 := by
  have run : Reaches (fun _ => True) .small (System.small.play smallAsked).1
      (System.small.play smallAsked).2 :=
    reaches_smallChanged.move (m := .begin 1 (.fetch 0 1 1)) ⟨rfl, Nat.zero_lt_one, rfl, nofun⟩
      trivial
  have since : Reaches (fun m => ¬ m.Begins 1) (System.small.play smallAsked).2
      [((System.small.play smallAsked).2, .resume 1 none)]
      ((System.small.play smallAsked).2.after (.resume 1 none)) := .move .start rfl id
  have ready : ((System.small.play smallAsked).2.after (.resume 1 none)).Permits
    (.resume 1 (some (.io "gone"))) := rfl
  refine ⟨_, _, run.append (since.mono fun _ _ => trivial), ready, rfl, ?_⟩
  exact (failed_fetches_leave_page_out Nat.zero_lt_one distinct_small run.shared rfl since.shared
    ready rfl (by decide)).1

def System.smallPair : System := .new 2 (Catalog.empty.openMemory "small" none).1

/-- Both frames are filled, the first with a page that is dirty, and the file has a third page. Two
tasks ask for that one: the first claims the dirty page, the second takes the other frame. -/
def smallOvertaken : List Move :=
  [.begin 0 (.allocate 0 0), .resume 0 none, .resume 0 none, .resume 0 none, .markDirty 0,
    .release 0, .begin 1 (.allocate 0 1), .resume 1 none, .resume 1 none, .resume 1 none,
    .release 1, .begin 2 (.allocate 0 2), .resume 2 none, .cancel 2, .begin 3 (.fetch 0 2 3),
    .resume 3 none, .begin 4 (.fetch 0 2 4), .resume 4 none, .resume 4 none]

/-- The dirty page cannot be written, so the first task fails, and its page is in the pool and
pinned. -/
theorem failed_fetch_leaves_page_in : ∃ h s, Reaches (fun _ => True) .smallPair h s ∧
    s.Permits (.resume 3 (some (.io "gone"))) ∧
    (s.resume 3 (some (.io "gone"))).2.2 = some (.refused (.store (.io (.reported "gone")))) ∧
    (s.after (.resume 3 (some (.io "gone")))).pool.ledger.occupant? 1 =
      some ⟨0, 2, 1, true, false, .idle⟩ ∧
    (s.after (.resume 3 (some (.io "gone")))).pool.ledger.table.find? (s.labels.key 0 2) = some 1 := by
  have run : Reaches (fun _ => True) .smallPair (System.smallPair.play smallOvertaken).1
      (System.smallPair.play smallOvertaken).2 := by
    refine .play ⟨⟨rfl, Nat.zero_lt_one, rfl, nofun⟩, rfl, rfl, rfl, ⟨⟨_, rfl⟩, nofun⟩,
      ⟨⟨_, rfl⟩, nofun⟩, ⟨rfl, Nat.zero_lt_one, rfl, nofun⟩, rfl, rfl, rfl, ⟨⟨_, rfl⟩, nofun⟩,
      ⟨rfl, Nat.zero_lt_one, rfl, nofun⟩, rfl, ⟨_, rfl, nofun⟩,
      ⟨rfl, Nat.zero_lt_one, rfl, nofun⟩, rfl, ⟨rfl, Nat.zero_lt_one, rfl, by decide⟩, rfl, rfl,
      trivial⟩ fun _ _ => trivial
  exact ⟨_, _, run, rfl, rfl, rfl, rfl⟩

end SecondChance
