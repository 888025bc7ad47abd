import SecondChance.Proofs.System.ErrandAgreement

/-!
Flushing by somebody who has the pool to himself.

What has to be written back, and which frames have to be emptied, depends on the pool. At a desk
there is nothing to flush, and flushing a pool comes to the same: it fails only where the page on
loan is in the way. When nothing is on loan and everything has been flushed, the files have what is
to be seen of them.
-/

namespace SecondChance

theorem Mark.IsSilent.not_isEditOf {k : Mark} (h : k.IsSilent) (f : FileNo) (p : PageNo) :
    ¬ k.IsEditOf f p := by
  cases k with
  | edited => exact fun _ => h
  | _ => exact id

namespace System

variable {s : System} {d : Desk} {task : Task} {f : FileNo} {p : PageNo}

/-! ### Flushing a file -/

/-- A file is being flushed, and its page on loan is still ahead. -/
def FlushingFile (d : Desk) (f : FileNo) (task : Task) (s : System) : Prop :=
  s.Stands d ∧
    ((∃ i w stage, task = .flushFile f i w stage ∧
        ∀ x, s.handles.find? 0 = some x → x.stay.file = f → i ≤ x.stay.frame) ∨
      ∃ w, task = .syncFile f w ∧ ∀ p, d.lent ≠ some (f, p))

theorem flushFile_of_unlent (unlent : ∀ p, d.lent ≠ some (f, p)) : d.flushFile f = (d, .done) := by
  rw [Desk.flushFile]
  split
  · next g p hd =>
    rw [if_neg]
    rintro rfl
    exact unlent p hd
  · rfl

section FlushFile

variable (alone : s.Alone 0) (h : s.Stands d)
include alone h

theorem flushesFile_look {i w : Nat} {look : Option Ticket} (hf : s.hasFile f)
    (ht : s.tasks.find? 0 = some (.flushFile f i w (.look look)))
    (ahead : ∀ x, s.handles.find? 0 = some x → x.stay.file = f → i ≤ x.stay.frame) :
    Leads (FlushingFile d f) (Concurs (d.flushFile f)) (s.after (.resume 0 none))
      (s.advance 0 none (.flushFile f i w (.look look))).2.2 := by
  obtain ⟨ks, mirrors⟩ := h.mirrors
  have hs := mirrors.sound
  have stands := h.resume alone ht rfl
  have handles := handles_after_resume ht none
  have idle {i : FrameNo} {o : Occupant} := alone.io_eq_idle (transferOf_eq ht) (i := i) (o := o)
  -- The flush may leave a frame if the page on loan is not there.
  have onward (other : ∀ x, s.handles.find? 0 = some x → x.stay.file = f → x.stay.frame ≠ i) (x)
      (hx : s.handles.find? 0 = some x) (hxf : x.stay.file = f) : i + 1 ≤ x.stay.frame :=
    Nat.lt_of_le_of_ne (ahead x hx hxf) (Ne.symm (other x hx hxf))
  by_cases hi : i < s.pool.size
  · obtain ⟨l, r, ha⟩ : ∃ l r, s.pool.ledger.flushFileAt s.labels i (s.labels f).id = (l, r) :=
      ⟨_, _, rfl⟩
    simp only [advance, lookForFlushFile, if_pos hi, ha] at handles ⊢
    cases Ledger.flushFileAt_cases ha with
    | skip other =>
      refine ⟨stands handles, .inl ⟨i + 1, w, _, rfl, ?_⟩⟩
      rw [handles]
      refine onward fun x hx hxf hxi => ?_
      obtain ⟨-, o, hat, -, -, file, -⟩ := h.held hx
      subst hxi hxf
      exact other o (Ledger.occupantAt_frame.1 hat).2 (by rw [file])
    | astray ho _ hk => exact (hk (hs.regular.consistent.find?_key ho)).elim
    | pinned ho hid hp =>
      have lent := h.lent_of_pinned alone (transferOf_eq ht) ho hp
      obtain rfl := hs.faithful.distinct _ _ (hs.faithful.seated.opened ho) hf hid
      rw [Desk.flushFile, lent]
      dsimp only
      rw [if_pos rfl, ← h.name_eq]
      exact ⟨stands handles, rfl⟩
    | wait ho _ busy => exact ((Occupant.standing_eq_busy.1 busy).2 (idle ho)).elim
    | claimed => exact ⟨stands handles, .inl ⟨i, w, _, rfl, by rw [handles]; exact ahead⟩⟩
    | emptied ho _ available =>
      refine ⟨stands handles, .inl ⟨i + 1, w, _, rfl, ?_⟩⟩
      rw [handles]
      refine onward fun x hx _ hxi => ?_
      obtain ⟨-, o, hat, hp, -⟩ := h.held hx
      subst hxi
      obtain rfl := Option.some.inj (ho.symm.trans (Ledger.occupantAt_frame.1 hat).2)
      exact hp (Occupant.standing_eq_available.1 available).1
  · have unlent (p) : d.lent ≠ some (f, p) := by
      intro hd
      obtain ⟨x, hx, hxf, -, o, hat, -⟩ := h.lends.page hd
      have inside := Ledger.lt_size_of_occupant? (Ledger.occupantAt_frame.1 hat).2
      exact hi (Nat.lt_of_le_of_lt (ahead x hx hxf) inside)
    simp only [advance, lookForFlushFile, if_neg hi] at handles ⊢
    split at handles
    · next hw =>
      rw [if_pos hw]
      rw [Leads, flushFile_of_unlent unlent]
      exact ⟨stands handles, rfl⟩
    · next hw =>
      rw [if_neg hw]
      exact ⟨stands handles, .inr ⟨w, rfl, unlent⟩⟩

theorem flushesFile (hf : f < d.files.files.size) (ht : s.tasks.find? 0 = some task)
    (flushing : FlushingFile d f task s) :
    Leads (FlushingFile d f) (Concurs (d.flushFile f)) (s.after (.resume 0 none))
      (s.advance 0 none task).2.2 := by
  have handles := handles_after_resume ht none
  obtain ⟨-, ⟨i, w, stage, rfl, ahead⟩ | ⟨w, rfl, unlent⟩⟩ := flushing
  · cases stage with
    | look => exact flushesFile_look alone h ((h.hasFile_iff f).2 hf) ht ahead
    | move x =>
      obtain ⟨kind, stay⟩ := x
      obtain rfl : kind = .writeBack := alone.regular.orderly.proper ht
      obtain ⟨s', events, hr, same⟩ := h.written (transferOf_eq ht)
      simp only [advance, hr] at handles ⊢
      refine ⟨h.resume alone ht rfl (handles.trans same), .inl ⟨i, w + 1, _, rfl, ?_⟩⟩
      rw [handles, same]
      exact ahead
  · have stands := h.resume alone ht rfl handles
    rw [flushFile_of_unlent unlent]
    exact ⟨stands, rfl⟩

end FlushFile

/-! ### Flushing everything -/

theorem Stands.flush_ok (h : s.Stands d) (ht : s.tasks.find? 0 = some task)
    (flush : task.isFlush = true) (proper : task.IsProper s.labels) (e : PoolError) :
    (s.advance 0 none task).2.2 ≠ .ends (.refused e) := by
  cases task with
  | flushAll i files stage =>
    cases stage with
    | look =>
      simp only [advance, lookForFlushAll]
      repeat' split
      all_goals rintro ⟨⟩
    | move x =>
      obtain ⟨kind, stay⟩ := x
      obtain rfl : kind = .writeBack := proper
      obtain ⟨s', events, hr, -⟩ := h.written (transferOf_eq ht)
      simp only [advance, hr]
      rintro ⟨⟩
  | syncAll n files =>
    cases files <;> rintro ⟨⟩
  | _ => cases flush

theorem flushes (alone : s.Alone 0) (h : s.Stands d) (ht : s.tasks.find? 0 = some task)
    (flush : task.isFlush = true) :
    Leads (fun task s => s.Stands d ∧ task.isFlush = true) (Concurs (d, .done))
      (s.after (.resume 0 none)) (s.advance 0 none task).2.2 := by
  have ok := h.flush_ok ht flush (alone.regular.orderly.proper ht)
  obtain ⟨handles, turn⟩ : (s.advance 0 none task).1.handles = s.handles ∧
    FlushTurn task (s.advance 0 none task).2.2 := flushTurn_advance flush
  have stands := h.resume alone ht (Task.isSilent_of_isFlush flush)
    ((handles_after_resume ht none).trans handles)
  generalize (s.advance 0 none task).2.2 = x at turn ok ⊢
  cases turn with
  | goesOn flush' => exact ⟨stands, flush'⟩
  | fails e => exact (ok e rfl).elim
  | done => exact ⟨stands, rfl⟩

/-- The file has what the page contains, or a flush is still to come to the page. -/
def Settling (s : System) (f : FileNo) (p : PageNo) : Prop :=
  s.IsStored f p ∨ ∃ stay, stay.file = f ∧ stay.page = p ∧ s.pool.ledger.Unsaved stay ∧
    s.Approaches 0 stay.frame

theorem settling_of_unlent {ks : List Mark} (hs : s.Sound ks)
    (unlent : ∀ k, s.handles.find? k = none)
    (ht : s.tasks.find? 0 = some (.flushAll 0 [] (.look none))) (hf : s.hasFile f) (p : PageNo) :
    s.Settling f p := by
  by_cases shown : ∃ i, s.pool.ledger.shown i = some (f, p)
  · obtain ⟨i, hi⟩ := shown
    obtain ⟨o, ho, hio, rfl, rfl⟩ := Ledger.shown_eq_some.1 hi
    by_cases unsaved : o.IsUnsaved
    · exact .inr ⟨s.pool.ledger.stayOf i o, rfl, rfl,
        ⟨o, Ledger.occupantAt_frame.2 ⟨rfl, ho⟩, rfl, rfl, unsaved⟩,
        approaches_of_look ht (Nat.zero_le _)⟩
    · have undirty : o.dirty = false := Bool.eq_false_iff.2 fun hd => unsaved ⟨hio, .inl hd⟩
      have idle : o.io = .idle := by
        cases he : o.io with
        | idle => rfl
        | busy kind =>
          cases kind with
          | load => exact (hio he).elim
          | writeBack => exact (unsaved ⟨hio, .inr he⟩).elim
      have clean : s.IsClean i :=
        ⟨⟨o, ho, idle, undirty⟩, fun k x hk => by cases (unlent k).symm.trans hk⟩
      exact .inl (isStored_of_shown hs.regular hi (hs.faithful.backed i _ _ clean hi))
  · exact .inl (isStored_of_hidden hs.regular hs.faithful.seated hs.faithful.distinct hf
      (not_exists.1 shown))

theorem settles (alone : s.Alone 0) (h : s.Stands d) (ht : s.tasks.find? 0 = some task)
    (flush : task.isFlush = true) (hf : s.hasFile f) (settling : s.Settling f p) :
    Leads (fun task s => s.Stands d ∧ task.isFlush = true ∧ s.Settling f p)
      (fun _ s => s.IsStored f p) (s.after (.resume 0 none)) (s.advance 0 none task).2.2 := by
  obtain ⟨ks, mirrors⟩ := h.mirrors
  have hs := mirrors.sound
  have ready : s.Permits (.resume 0 none) := alone.isReady ht
  have leads := flushes alone h ht flush
  have found := find?_after_resume ht none
  rcases settling with stored | ⟨stay, rfl, rfl, unsaved, approaches⟩
  · have acts := acts_after hs.regular.orderly hs.regular.consistent.size_pos ready
    have silent : ∀ k ∈ s.marks (.resume 0 none), k.IsSilent :=
      silent_of_resume ht (Task.isSilent_of_isFlush flush)
    have stored' := acts.isStored hs (fun k hk => Move.IsFair.mark (m := .resume 0 none) rfl hk) hf
      (fun k hk => (silent k hk).not_isEditOf f p) stored
    generalize (s.advance 0 none task).2.2 = x at leads ⊢
    cases x with
    | goesOn => exact ⟨leads.1, leads.2, .inl stored'⟩
    | ends => exact stored'
  · have undone : (s.resume 0 none).2.2 ≠ some .done := result_ne_done approaches
    rw [result_resume ht] at undone
    have after := approaches_after hs ready rfl id hf unsaved approaches
    generalize (s.advance 0 none task).2.2 = x at leads found undone ⊢
    cases x with
    | goesOn task' =>
      refine ⟨leads.1, leads.2, ?_⟩
      rcases after with stored | gone | still
      · exact .inl stored
      · cases gone.symm.trans found
      · exact .inr ⟨stay, rfl, rfl, still⟩
    | ends r =>
      obtain ⟨-, done⟩ := leads
      cases r with
      | done => exact (undone rfl).elim
      | _ => cases done

/-! ### Errands -/

section Errands

variable (h : s.Stands d) (still : s.Quiescent)
include h still

theorem agree_flushFile (hf : f < d.files.files.size) :
    Agree (s.carryOut (.flushFile f)) ((d.flushFile f).map id .ended) := by
  have admits : s.Admits (.flushFile f) := (h.hasFile_iff f).2 hf
  refine still.agree (I := FlushingFile d f) admits ?_
    fun alone ht flushing => flushesFile alone flushing.1 hf ht flushing
  exact ⟨h.begin ⟨still.idle 0, admits⟩ (by rintro _ _ ⟨⟩), .inl ⟨0, 0, _, rfl, fun _ _ _ => Nat.zero_le _⟩⟩

theorem agree_flushAll : Agree (s.carryOut .flushAll) (d, .ended .done) := by
  refine still.agree (I := fun task s => s.Stands d ∧ task.isFlush = true) (e := (d, .done)) trivial
    ?_ fun alone ht flushing => flushes alone flushing.1 ht flushing.2
  exact ⟨h.begin ⟨still.idle 0, trivial⟩ (by rintro _ _ ⟨⟩), rfl⟩

/-- Once everything has been flushed and nothing is on loan, the files have what is to be seen. -/
theorem isStored_flushAll (hd : d.lent = none) (hf : f < d.files.files.size) (p : PageNo) :
    (s.carryOut .flushAll).1.IsStored f p := by
  have admits : s.Admits .flushAll := trivial
  obtain ⟨possible, -, ht⟩ := still.begin admits 0
  have begun : (s.begin 0 .flushAll).Stands d := h.begin possible (by rintro _ _ ⟨⟩)
  obtain ⟨ks, mirrors⟩ := begun.mirrors
  have unlent := begun.lends.find?_eq_none hd
  have settling := settling_of_unlent mirrors.sound unlent ht ((begun.hasFile_iff f).2 hf) p
  obtain ⟨-, -, stored, -⟩ := still.carryOut
    (I := fun task s => s.Stands d ∧ task.isFlush = true ∧ s.Settling f p)
    (Q := fun _ s => s.IsStored f p) admits ⟨begun, rfl, settling⟩
    fun alone ht flushing => settles alone flushing.1 ht flushing.2.1
      ((flushing.1.hasFile_iff f).2 hf) flushing.2.2
  exact stored

end Errands

end System

end SecondChance
