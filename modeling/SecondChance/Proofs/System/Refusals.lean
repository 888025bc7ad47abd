import SecondChance.Proofs.System.Regular

/-!
The errors that moves can report.

In a regular system the two accounts of which page is where agree, so what is left are the errors of
page files, a pool whose frames are all pinned, a page that may not be pinned, and pins or handles
that are given back or used when their time is over. `Refuses` lists these with the reason for each.
-/

namespace SecondChance.System

/-- Why a move reports an error. -/
inductive Refuses (s : System) : Move → PoolError → Prop
  | call (m : Move) (e : StoreError) : Refuses s m (.store e)
  | exhausted {t : TaskId} (fault : Option Fault) {file : FileNo} {page : PageNo} {h : HandleNo}
      {w : Option Stay} {look : Option Ticket} {n : Nat}
      (ht : s.tasks.find? t = some (.fetch file page h w (.look look)))
      (hr : (s.pool.ledger.acquire s.labels file page w).2 = .error (.exhausted n)) :
      Refuses s (.resume t fault) (.exhausted n)
  | pinned (m : Move) (file : String) (page : PageNo) (i : FrameNo) :
      Refuses s m (.pinned file page i)
  | giveBack (m : Move) {h : HandleNo} {x : Handle} {l : Ledger} {e : PoolError}
      (hh : s.handles.find? h = some x)
      (hr : s.pool.ledger.unpinStay s.labels x.stay x.dirty = (l, .error e)) : Refuses s m e
  | enter {t : TaskId} (fault : Option Fault) {h : HandleNo} {stay : Stay} {purpose : Access}
      {e : PoolError} (ht : s.tasks.find? t = some (.access h stay purpose .latching))
      (hl : s.pool.ledger.stillLoading stay = .error e) : Refuses s (.resume t fault) e
  | unpin {file : FileNo} {page : PageNo} {dirty : Bool} {l : Ledger} {e : PoolError}
      (hr : s.pool.ledger.unpinPage s.labels file page dirty = (l, .error e)) :
      Refuses s (.unpin file page dirty) e

variable {s : System} {t : TaskId} {fault : Option Fault} {e : PoolError} {m : Move}

theorem refusal?_resume {task : Task} (ht : s.tasks.find? t = some task)
    (h : s.refusal? (.resume t fault) = some e) :
    (s.advance t fault task).2.2 = .ends (.refused e) := by
  simp only [refusal?, resume, ht] at h
  generalize s.advance t fault task = p at h ⊢
  obtain ⟨s', events, turn⟩ := p
  cases turn with
  | goesOn => cases h
  | ends r =>
    cases r with
    | refused e' =>
      obtain rfl := Option.some.inj h
      rfl
    | _ => cases h

theorem Refuses.of_call {r : StoreError}
    (h : Turn.ends (.refused (.store r)) = .ends (.refused e)) : Refuses s m e := by
  obtain rfl := Result.refused.inj (Turn.ends.inj h)
  exact .call m r

theorem refuses_lookForFetch {file : FileNo} {page : PageNo} {hn : HandleNo} {w : Option Stay}
    {look : Option Ticket} (hs : s.Regular)
    (ht : s.tasks.find? t = some (.fetch file page hn w (.look look)))
    (h : (s.lookForFetch t file page hn w).2.2 = .ends (.refused e)) :
    Refuses s (.resume t fault) e := by
  obtain ⟨l, r, ha⟩ : ∃ l r, s.pool.ledger.acquire s.labels file page w = (l, r) := ⟨_, _, rfl⟩
  simp only [lookForFetch, ha] at h
  cases Ledger.acquire_cases hs.consistent.size_pos ha with
  | astray hk ho => exact (hs.consistent.occupant?_ne_none hk ho).elim
  | exhausted =>
    obtain rfl := Result.refused.inj (Turn.ends.inj h)
    exact .exhausted fault ht (congrArg Prod.snd ha)
  | _ => cases h

theorem refuses_lookForExpel {file : FileNo} {page : PageNo} {key : PageKey} (hs : s.Regular)
    (h : (s.lookForExpel file page key).2.2 = .ends (.refused e)) : Refuses s m e := by
  obtain ⟨l, r, ha⟩ : ∃ l r, s.pool.ledger.expel key (s.name file) page = (l, r) := ⟨_, _, rfl⟩
  simp only [lookForExpel, ha] at h
  cases Ledger.expel_cases ha with
  | astray hk ho => exact (hs.consistent.occupant?_ne_none hk ho).elim
  | pinned =>
    obtain rfl := Result.refused.inj (Turn.ends.inj h)
    exact .pinned m _ _ _
  | _ => cases h

theorem refuses_lookForFlushFile {file : FileNo} {frame : FrameNo} {written : Nat} (hs : s.Regular)
    (h : (s.lookForFlushFile t file frame written).2.2 = .ends (.refused e)) : Refuses s m e := by
  unfold lookForFlushFile at h
  split at h
  · obtain ⟨l, r, ha⟩ : ∃ l r,
        s.pool.ledger.flushFileAt s.labels frame (s.labels file).id = (l, r) := ⟨_, _, rfl⟩
    simp only [ha] at h
    cases Ledger.flushFileAt_cases ha with
    | astray ho _ hk => exact (hk (hs.consistent.find?_key ho)).elim
    | pinned =>
      obtain rfl := Result.refused.inj (Turn.ends.inj h)
      exact .pinned m _ _ _
    | _ => cases h
  · split at h <;> cases h

theorem refuses_lookForFlushAll {frame : FrameNo} {files : List FileNo}
    (h : (s.lookForFlushAll t frame files).2.2 = .ends (.refused e)) : Refuses s m e := by
  unfold lookForFlushAll at h
  split at h
  · split at h <;> cases h
  · cases h

theorem refuses_advance {task : Task} (hs : s.Regular) (ht : s.tasks.find? t = some task)
    (h : (s.advance t fault task).2.2 = .ends (.refused e)) : Refuses s (.resume t fault) e := by
  cases task with
  | allocate file hn =>
    simp only [advance] at h
    split at h
    · exact .of_call h
    · cases h
  | fetch file page hn w stage =>
    cases stage with
    | look => exact refuses_lookForFetch hs ht h
    | move x =>
      simp only [advance, moveForFetch] at h
      split at h
      · exact .of_call h
      · cases h
      · cases h
  | expel file page key look => exact refuses_lookForExpel hs h
  | delete file page =>
    simp only [advance] at h
    split at h
    · exact .of_call h
    · cases h
  | flushFile file frame written stage =>
    cases stage with
    | look => exact refuses_lookForFlushFile hs h
    | move x =>
      simp only [advance] at h
      split at h
      · exact .of_call h
      · cases h
  | syncFile file written =>
    simp only [advance] at h
    split at h
    · exact .of_call h
    · cases h
  | flushAll frame files stage =>
    cases stage with
    | look => exact refuses_lookForFlushAll h
    | move x =>
      simp only [advance] at h
      split at h
      · exact .of_call h
      · cases h
  | syncAll n files =>
    cases files with
    | nil => cases h
    | cons file remaining =>
      simp only [advance] at h
      split at h
      · exact .of_call h
      · cases h
  | access hn stay purpose stage =>
    cases stage with
    | latching =>
      simp only [advance, enter] at h
      split at h
      · next hl =>
        obtain rfl := Result.refused.inj (Turn.ends.inj h)
        exact .enter fault ht hl
      · cases h
      · cases h
    | loading => cases h
    | inside => cases purpose <;> cases h

theorem unpinFailed_of_drop {s' : System} {hn : HandleNo} {file : String} {page : PageNo}
    {i : FrameNo} (h : (s'.drop hn).2 = [.unpinFailed file page i e]) :
    ∃ x l, s'.handles.find? hn = some x ∧
      s'.pool.ledger.unpinStay s'.labels x.stay x.dirty = (l, .error e) := by
  unfold drop release at h
  cases hh : s'.handles.find? hn with
  | none =>
    rw [hh] at h
    cases h
  | some x =>
    obtain ⟨l, r, hr⟩ : ∃ l r, s'.pool.ledger.unpinStay s'.labels x.stay x.dirty = (l, r) :=
      ⟨_, _, rfl⟩
    simp only [hh, hr] at h
    cases r with
    | ok => cases h
    | error e' =>
      obtain ⟨-, -, -, rfl⟩ := Event.unpinFailed.inj (List.singleton_inj.1 h)
      exact ⟨x, l, rfl, hr⟩

theorem refuses_cancel {task : Task} {file : String} {page : PageNo} {i : FrameNo}
    (ht : s.tasks.find? t = some task) (h : (s.cancel t).2 = [.unpinFailed file page i e]) :
    Refuses s m e := by
  simp only [cancel, ht] at h
  cases task with
  | access hn stay purpose stage =>
    cases stage with
    | latching | inside | loading =>
      obtain ⟨x, l, hh, hr⟩ := unpinFailed_of_drop h
      exact .giveBack m hh hr
  | fetch _ _ _ _ stage | flushFile _ _ _ stage | flushAll _ _ stage => cases stage <;> cases h
  | _ => cases h

/-- Every error that a move reports has one of the reasons listed. -/
theorem refuses_of_refusal? (hs : s.Regular) (hp : s.Permits m) (h : s.refusal? m = some e) :
    Refuses s m e := by
  cases m with
  | resume t fault =>
    obtain ⟨task, ht, -⟩ := isReady_iff.1 hp
    exact refuses_advance hs ht (refusal?_resume ht h)
  | cancel t =>
    obtain ⟨task, ht, -⟩ := hp
    simp only [refusal?] at h
    split at h
    · next hc =>
      obtain rfl := Option.some.inj h
      exact refuses_cancel ht hc
    · cases h
  | release hn =>
    obtain ⟨⟨x, hh⟩, -⟩ := hp
    simp only [refusal?, release, hh] at h
    split at h
    · next hr =>
      obtain rfl := Option.some.inj h
      exact .giveBack _ hh (Prod.ext rfl hr)
    · cases h
  | drop hn =>
    simp only [refusal?] at h
    split at h
    · next hd =>
      obtain rfl := Option.some.inj h
      obtain ⟨x, l, hh, hr⟩ := unpinFailed_of_drop hd
      exact .giveBack _ hh hr
    · cases h
  | unpin file page dirty =>
    simp only [refusal?, System.unpin] at h
    split at h
    · next hr =>
      obtain rfl := Option.some.inj h
      split at hr
      · next ha =>
        obtain rfl := Except.error.inj hr
        exact .unpin ha
      · cases hr
      · cases hr
    · cases h
  | _ => cases h

end SecondChance.System
