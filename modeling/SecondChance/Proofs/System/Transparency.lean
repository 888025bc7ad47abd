import SecondChance.Proofs.System.Contents

/-!
Nobody sees that there is a pool in between.

Suppose that files are only touched through the pool, that each has an identity of its own, that no
page is disposed of, and that pins are given back by handle. Then what a page contains, seen through
the pool, is changed by writers who have the page and by nobody else: not by evictions and flushes,
not by failures, and not by tasks that are given up.
-/

namespace SecondChance

/-- Pins are accounted for, borrowers are seated, no two files share an identity or a place, clean
frames are backed by their files, and no page is being disposed of. -/
structure System.Faithful (ks : List Mark) (s : System) : Prop where
  accounted : s.pool.ledger.Accounted (s.claims ks) (lostIn ks)
  seated : s.Seated
  distinct : s.files.Distinct
  apart : s.files.Apart
  backed : s.Backed
  undisposed {t : TaskId} {task : Task} (ht : s.tasks.find? t = some task) :
    task.isDisposal = false

/-- Neither a page nor a handle is got rid of in another way than by giving it back, and whoever
reads from a file gets all of the page or an error. -/
def Mark.IsFair : Mark → Prop
  | .detached _ | .unpinned | .disposing | .cutShort _ => False
  | _ => True

/-- A move that is neither detaching, unpinning by page nor disposing of a page, and in which no
read succeeds without delivering the page. -/
def Move.IsFair : Move → Prop
  | .detach _ | .unpin .. | .begin _ (.dispose ..) => False
  | .resume _ fault => Fault.cuts fault = false
  | _ => True

theorem Move.IsFair.mark {s : System} {m : Move} (hm : m.IsFair) {k : Mark} (hk : k ∈ s.marks m) :
    k.IsFair := by
  have ht := System.tells_of_mem hk
  cases k with
  | detached =>
    obtain ⟨h, rfl⟩ := ht
    exact hm.elim
  | unpinned =>
    obtain ⟨file, page, dirty, rfl⟩ := ht
    exact hm.elim
  | disposing =>
    obtain ⟨t, file, page, rfl⟩ := ht
    exact hm.elim
  | cutShort =>
    obtain ⟨t, fault, rfl, hc⟩ := ht
    exact Bool.false_ne_true (hm.symm.trans hc)
  | _ => trivial

namespace System

variable {s s' : System} {ks k : List Mark} {i : FrameNo}

theorem IsClean.back (hc : s'.IsClean i) (hr : s.pool.ledger.Rests i)
    (hg : s'.pool.ledger.generation i = s.pool.ledger.generation i)
    (hh : ∀ j x, s.handles.find? j = some x → x.dirty = true →
      x.stay.isAt i (s.pool.ledger.generation i) = true → s'.handles.find? j = some x) :
    s.IsClean i := by
  refine ⟨hr, fun j x hj hx => ?_⟩
  cases hd : x.dirty with
  | false => rfl
  | true =>
    have hx' := hc.2 j x (hh j x hj hd hx)
    rw [hg] at hx'
    exact hd.symm.trans (hx' hx)

theorem isClean_of_available (ha : s.pool.ledger.Accounted (s.claims ks) (lostIn ks))
    {o : Occupant} (ho : s.pool.ledger.occupant? i = some o) (hs : o.standing = .available)
    (hd : o.dirty = false) : s.IsClean i := by
  obtain ⟨hp, hio⟩ := Occupant.standing_eq_available.1 hs
  refine ⟨⟨o, ho, hio, hd⟩, fun j x hj hx => ?_⟩
  obtain ⟨rfl, hg⟩ := Stay.isAt_iff.1 hx
  have hz := claims_ne_zero hj ks
  have hpins := ha.pins ho
  rw [hg] at hz
  omega

theorem buffer_congr (hb : s'.pool.buffers = s.pool.buffers) (i : FrameNo) :
    s'.pool.buffer i = s.pool.buffer i := by
  rw [Pool.buffer, hb, Pool.buffer]

theorem silent_nil : ∀ x ∈ ([] : List Mark), x.IsSilent := nofun

namespace Effect

theorem still (hk : ∀ x ∈ k, x.IsSilent) (hl : s'.pool.ledger = s.pool.ledger)
    (hb : s'.pool.buffers = s.pool.buffers) (hh : s'.handles = s.handles)
    (hf : s'.files.page? = s.files.page?) : Effect s s' k := by
  refine .rest hk (fun i => .inl (by rw [hl])) (fun i _ => buffer_congr hb i) hf fun i hc => ?_
  unfold IsClean at hc ⊢
  rwa [hl, hh] at hc

theorem setOccupant {o q : Occupant} (hk : ∀ x ∈ k, x.IsSilent)
    (ho : s.pool.ledger.occupant? i = some o) (hl : s'.pool.ledger = s.pool.ledger.setOccupant i q)
    (hf : q.file = o.file) (hp : q.page = o.page) (hio : q.io = .busy .load ↔ o.io = .busy .load)
    (hq : q.io = .idle → q.dirty = false → o.io = .idle ∧ o.dirty = false)
    (hb : s'.pool.buffers = s.pool.buffers) (hfile : s'.files.page? = s.files.page?)
    (hh : ∀ j x, s.handles.find? j = some x → x.dirty = true → s'.handles.find? j = some x) :
    Effect s s' k := by
  refine .rest hk (fun j => .inl ?_) (fun j _ => buffer_congr hb j) hfile fun j hc => ?_
  · rw [hl, Ledger.shown_setOccupant ho hf hp hio]
  · have hr := hc.1
    rw [hl] at hr
    refine hc.back (Ledger.rests_setOccupant ho (fun _ => hq) hr) ?_ fun j x hx hd _ => hh j x hx hd
    rw [hl, Ledger.generation_setOccupant]

end Effect

section Transfers

variable {t : TaskId} {stay : Stay}

theorem Regular.shown_of_writeBack (hs : s.Regular)
    (hx : s.transferOf t = some ⟨.writeBack, stay⟩) :
    s.pool.ledger.shown stay.frame = some (stay.file, stay.page) := by
  obtain ⟨o, ho, hio, hf, hp⟩ := hs.escorted.occupantAt hx
  refine Ledger.shown_eq_some.2 ⟨o, (Ledger.occupantAt_frame.1 ho).2, ?_, hf, hp⟩
  rw [hio]
  nofun

theorem Regular.shown_of_load (hs : s.Regular) (hx : s.transferOf t = some ⟨.load, stay⟩) :
    s.pool.ledger.shown stay.frame = none := by
  obtain ⟨o, -, -, ho, hio⟩ := hs.seat hx
  rw [Ledger.shown_of_occupant? ho, if_pos hio]

theorem effect_write (hs : s.Regular) (h : s.Faithful ks)
    (hx : s.transferOf t = some ⟨.writeBack, stay⟩) (fault : Option Fault) :
    Effect s (s.setFiles
      (s.files.write fault stay.file stay.page (.page (s.pool.buffer stay.frame))).1) [] := by
  obtain ⟨-, ⟨hp, -⟩ | hp⟩ := Catalog.write_cases h.apart
    (rfl : s.files.write fault stay.file stay.page (.page (s.pool.buffer stay.frame)) = (_, _))
  · exact .still silent_nil rfl rfl rfl hp
  · exact .save (hs.shown_of_writeBack hx) (fun _ => rfl) (fun _ => rfl) hp fun _ _ hc => hc

theorem effect_wrote (hs : s.Regular) (h : s.Faithful ks)
    (hx : s.transferOf t = some ⟨.writeBack, stay⟩) {fault : Option Fault} {files : Catalog}
    (hr : s.files.write fault stay.file stay.page (.page (s.pool.buffer stay.frame)) =
      (files, .ok ())) (hl : s'.pool.ledger = s.pool.ledger.settle s.labels ⟨.writeBack, stay⟩ true)
    (hb : s'.pool.buffers = s.pool.buffers) (hh : s'.handles = s.handles)
    (hf : s'.files = files) : Effect s s' [] := by
  obtain ⟨o, hat, -, ho, hio⟩ := hs.seat hx
  rw [Ledger.settle_succeeded hat hio] at hl
  obtain ⟨-, ⟨-, e, he⟩ | hp⟩ := Catalog.write_cases h.apart hr
  · cases he
  · rw [← hf] at hp
    refine .save (hs.shown_of_writeBack hx) (fun j => ?_) (buffer_congr hb) hp fun j hj hc => ?_
    · rw [hl]
      refine Ledger.shown_setOccupant (q := { o with io := .idle }) ho rfl rfl ?_ j
      simp [hio]
    · have hrest := hc.1
      rw [hl] at hrest
      refine hc.back (Ledger.rests_setOccupant ho (fun he => (hj he).elim) hrest) ?_
        fun k x hk _ _ => ?_
      · rw [hl, Ledger.generation_setOccupant]
      · rw [hh, hk]

theorem effect_loaded (hs : s.Regular) (h : s.Faithful ks) (hk : ∀ x ∈ k, x.IsSilent)
    (hx : s.transferOf t = some ⟨.load, stay⟩) {fault : Option Fault} {files : Catalog}
    {content : Page} (hcut : Fault.cuts fault = false)
    (hr : s.files.read fault stay.file stay.page (.page (s.pool.buffer stay.frame)) =
      (files, .ok content)) (hl : s'.pool.ledger = s.pool.ledger.settle s.labels ⟨.load, stay⟩ true)
    (hb : s'.pool.buffers = (s.pool.setBuffer stay.frame content).buffers)
    (hh : ∀ j x, s.handles.find? j = some x → s'.handles.find? j = some x)
    (hf : s'.files = files) : Effect s s' k := by
  obtain ⟨o, hat, -, ho, hio⟩ := hs.seat hx
  have hsize := Ledger.lt_size_of_occupant? ho
  rw [Ledger.settle_succeeded hat hio] at hl
  obtain ⟨-, hp, hq⟩ := Catalog.read_cases h.apart hr
  have hbuffer (j : FrameNo) :
      s'.pool.buffer j = if stay.frame = j then content else s.pool.buffer j := by
    have hset := Pool.buffer_setBuffer s.pool stay.frame j content
    rw [h.seated.sized, Pool.buffer, ← hb, ← Pool.buffer] at hset
    rw [hset]
    simp only [hsize, and_true]
  rw [← hf] at hp
  refine .load (i := stay.frame) (f := stay.file) (p := stay.page) hk (hs.shown_of_load hx)
    (fun j => ?_) ?_ (fun j hj => (hbuffer j).trans (if_neg hj)) hp fun j hj hc => ?_
  · rw [hl]
    by_cases hj : stay.frame = j
    · subst hj
      obtain ⟨o', hat', -, hfile, hpage⟩ := hs.escorted.occupantAt hx
      obtain rfl := Option.some.inj (hat.symm.trans hat')
      rw [if_pos rfl]
      refine Ledger.shown_eq_some.2 ⟨{ o with io := .idle }, ?_, fun hl => ?_, hfile, hpage⟩
      · rw [Ledger.occupant?_setOccupant hsize, if_pos rfl]
      · cases hl
    · rw [if_neg hj]
      refine Ledger.shown_congr ?_
      rw [Ledger.occupant?_setOccupant hsize, if_neg hj]
  · rw [hq content rfl hcut, hbuffer, if_pos rfl]
  · have hrest := hc.1
    rw [hl] at hrest
    refine hc.back (Ledger.rests_setOccupant ho (fun he => (hj he).elim) hrest) ?_
      fun m x hm _ _ => ?_
    · rw [hl, Ledger.generation_setOccupant]
    · exact hh m x hm

end Transfers

theorem effect_giveBack (h : s.Faithful ks) {hn : HandleNo} {x : Handle} {l : Ledger}
    {r : Except PoolError Unit} (hh : s.handles.find? hn = some x)
    (hr : s.pool.ledger.unpinStay s.labels x.stay x.dirty = (l, r)) :
    Effect s ((s.detach hn).setLedger l) [] := by
  cases Ledger.unpinStay_cases hr with
  | stale hn' =>
    refine .rest silent_nil (fun _ => .inl rfl) (fun _ _ => rfl) rfl fun i hc => ?_
    refine hc.back hc.1 rfl fun j y hj _ hat => ?_
    refine (find?_detach_of_ne ?_).trans hj
    rintro rfl
    obtain rfl := Option.some.inj (hh.symm.trans hj)
    obtain ⟨rfl, hg⟩ := Stay.isAt_iff.1 hat
    obtain ⟨o, ho, -⟩ := hc.1
    have hnone := Ledger.occupantAt_eq_none.1 hn' hg.symm
    cases hnone.symm.trans ho
  | unpinned ho hp => exact (pins_ne_zero h.accounted hh ho hp).elim
  | @ok o hat =>
    obtain ⟨hg, ho⟩ := Ledger.occupantAt_frame.1 hat
    refine .rest silent_nil (fun j => .inl ?_) (fun _ _ => rfl) rfl fun i hc => ?_
    · exact Ledger.shown_setOccupant (q := o.returned x.dirty) ho rfl rfl Iff.rfl j
    · have hrest : s.pool.ledger.Rests i := by
        refine Ledger.rests_setOccupant (q := o.returned x.dirty) ho
          (fun _ hio hd => ⟨hio, ?_⟩) hc.1
        exact (Bool.or_eq_false_iff.1 hd).1
      refine hc.back hrest (Ledger.generation_setOccupant ..) fun j y hj hd hy => ?_
      refine (find?_detach_of_ne ?_).trans hj
      rintro rfl
      -- The handle says that the page is dirty, and so it is now, but not in a clean frame.
      obtain rfl := Option.some.inj (hh.symm.trans hj)
      obtain ⟨rfl, -⟩ := Stay.isAt_iff.1 hy
      obtain ⟨q, hq, -, hqd⟩ := hc.1
      have hq' : (s.pool.ledger.setOccupant x.stay.frame (o.returned x.dirty)).occupant?
          x.stay.frame = some q := hq
      rw [Ledger.occupant?_setOccupant (Ledger.lt_size_of_occupant? ho), if_pos rfl] at hq'
      obtain rfl := Option.some.inj hq'
      rw [Occupant.returned, hd, Bool.or_true] at hqd
      cases hqd

theorem effect_dirtied {hn : HandleNo} (hl : s'.pool.ledger = s.pool.ledger)
    (hb : s'.pool.buffers = s.pool.buffers) (hh : s'.handles = (s.markDirty hn).handles)
    (hf : s'.files.page? = s.files.page?) : Effect s s' [] := by
  refine .rest silent_nil (fun i => .inl (by rw [hl])) (fun i _ => buffer_congr hb i) hf
    fun i hc => ?_
  have hr := hc.1
  rw [hl] at hr
  refine hc.back hr (by rw [hl]) fun j x hj hd _ => ?_
  rw [hh]
  exact find?_markDirty_of_dirty hj hd

theorem effect_edit (h : s.Faithful ks) {t : TaskId} {hn : HandleNo} {stay : Stay}
    {e₀ : Page → Page} (ht : s.tasks.find? t = some (.access hn stay (.write e₀) .inside))
    (e : Page → Page) : Effect s (s.setPool (s.pool.setBuffer stay.frame
      (e (s.pool.buffer stay.frame)))) [.edited stay e] := by
  have hh := h.seated.writing ht
  obtain ⟨o, hat, hio⟩ := h.seated.inside ht
  obtain ⟨hf, hp⟩ := h.seated.placed hh hat
  obtain ⟨hg, ho⟩ := Ledger.occupantAt_frame.1 hat
  refine .edit (Ledger.shown_eq_some.2 ⟨o, ho, hio, hf, hp⟩) (fun _ => rfl) (fun j => ?_) rfl
    fun j hc => ⟨hc, ?_⟩
  · have hset := Pool.buffer_setBuffer s.pool stay.frame j (e (s.pool.buffer stay.frame))
    rw [h.seated.sized] at hset
    refine hset.trans ?_
    by_cases hj : stay.frame = j
    · subst hj
      rw [if_pos ⟨rfl, Ledger.lt_size_of_occupant? ho⟩, if_pos rfl]
    · rw [if_neg hj, if_neg fun hc => hj hc.1]
  · rintro rfl
    have hd := hc.2 hn ⟨stay, true⟩ hh (Stay.isAt_iff.2 ⟨rfl, hg.symm⟩)
    cases hd

theorem Act.effect (a : Act s k s') (hs : s.Regular) (hk : ∀ x ∈ k, x.IsFair)
    (h : s.Faithful ks) : Effect s s' k := by
  have unfair {x : Mark} (hx : x ∈ k) (hn : ¬ x.IsFair) : Effect s s' k := (hn (hk x hx)).elim
  cases a with
  | ease he =>
    refine .rest silent_nil (fun i => ?_) (fun _ _ => rfl) rfl fun i hc => ?_
    · rcases Ledger.Eased.shown he i with hsame | ⟨hn, o, ho, havail, hd⟩
      · exact .inl hsame
      · exact .inr ⟨isClean_of_available h.accounted ho havail hd, hn⟩
    · obtain ⟨hr, hg⟩ := he.rests hc.1
      exact hc.back hr hg fun _ _ hj _ _ => hj
  | expel ht | delete ht => exact (Bool.false_ne_true (h.undisposed ht).symm).elim
  | latch | turn | stop | borrow | queue | quit => exact .still silent_nil rfl rfl rfl rfl
  | @start _ task =>
    refine .still ?_ rfl rfl rfl rfl
    rw [Task.opening]
    split <;> simp [Mark.IsSilent]
  | sync fault f => exact .still silent_nil rfl rfl rfl (congrArg _ (Catalog.sync_fst ..))
  | read fault f n content =>
    exact .still silent_nil rfl rfl rfl (Catalog.read_cases h.apart rfl).2.1
  | @hit t file page hn w look i o ht hk ho =>
    refine .setOccupant silent_nil ho rfl rfl rfl Iff.rfl (fun hio hd => ⟨hio, hd⟩) rfl rfl ?_
    exact fun j x hj _ => find?_lendTo_of_old (hs.orderly.unfilled ht rfl) hj _
  | @install t file page hn w look i ht hk hi ho =>
    refine .rest silent_nil (fun j => .inl ?_) (fun _ _ => rfl) rfl fun j hc => ?_
    · exact Ledger.shown_install hi ho _ _ _ j
    · obtain ⟨hj, hr⟩ := Ledger.rests_install hi hc.1
      refine hc.back hr ?_ fun _ _ hj _ _ => hj
      exact (Ledger.generation_install hi _ _ _ j).trans (by rw [if_neg hj, Nat.add_zero])
  | @claim t task task' i o ht hp ho hio hd =>
    refine .setOccupant silent_nil ho rfl rfl rfl ?_ (fun hi _ => ?_) rfl rfl fun _ _ hj _ => hj
    · simp [Occupant.claimed, hio]
    · cases hi
  | @fill t stay hx content =>
    refine .rest silent_nil (fun _ => .inl rfl) (fun i hi => ?_) rfl fun i hc => hc
    refine (Pool.buffer_setBuffer s.pool stay.frame i content).trans (if_neg ?_)
    rintro ⟨rfl, -⟩
    exact hi (hs.shown_of_load hx)
  | @loaded t file page hn w stay fault files content ht hr =>
    have hcut : Fault.cuts fault = false := by
      cases hc : Fault.cuts fault with
      | false => rfl
      | true => exact (hk (.cutShort stay) (by rw [hc]; exact List.mem_singleton_self _)).elim
    refine effect_loaded hs h ?_ (transferOf_eq ht) hcut hr rfl rfl (fun j x hj => ?_) rfl
    · rw [hcut]
      exact silent_nil
    · exact find?_lendTo_of_old (hs.orderly.unfilled ht rfl) hj stay
  | @lost t task stay ht hx =>
    obtain ⟨o, hat, -, ho, hio⟩ := hs.seat ((transferOf_eq ht).trans hx)
    have hl : s.pool.ledger.settle s.labels ⟨.load, stay⟩ false =
        s.pool.ledger.vacate stay.frame (o.key s.labels) := Ledger.settle_load_failed hat hio
    refine .rest (by simp [Mark.IsSilent]) (fun j => .inl ?_) (fun _ _ => rfl) rfl fun j hc => ?_
    · show (s.pool.ledger.settle s.labels ⟨.load, stay⟩ false).shown j = _
      rw [hl, Ledger.shown_vacate_of_loading ho hio]
    · have hrest := hc.1
      change (s.pool.ledger.settle s.labels ⟨.load, stay⟩ false).Rests j at hrest
      rw [hl] at hrest
      refine hc.back (Ledger.rests_vacate ho hrest) ?_ fun _ _ hj _ _ => hj
      show (s.pool.ledger.settle s.labels ⟨.load, stay⟩ false).generation j = _
      rw [hl, Ledger.generation_vacate]
  | wrote ht hx hr => exact effect_wrote hs h ((transferOf_eq ht).trans hx) hr rfl rfl rfl rfl
  | @unwritten t task stay ht hx =>
    obtain ⟨o, hat, -, ho, hio⟩ := hs.seat ((transferOf_eq ht).trans hx)
    have hl : s.pool.ledger.settle s.labels ⟨.writeBack, stay⟩ false =
        s.pool.ledger.setOccupant stay.frame { o with io := .idle, dirty := true } :=
      Ledger.settle_writeBack_failed hat hio
    refine .setOccupant silent_nil ho hl rfl rfl ?_ (fun _ hd => ?_) rfl rfl fun _ _ hj _ => hj
    · simp [hio]
    · cases hd
  | write hx fault => exact effect_write hs h hx fault
  | @allocate t file hn ht fault =>
    have hp := (Catalog.allocate_cases h.apart (rfl : s.files.allocate fault file = (_, _))).2
    refine .grow (fun _ => rfl) (fun _ => rfl) (fun f p => ?_) fun _ hc => hc
    rcases hp f p with he | ⟨hf, hr, hn⟩
    · exact .inl he
    · refine .inr ⟨hf, ?_, hn⟩
      rw [hr]
      rfl
  | @enter t hn stay purpose stage ht =>
    cases purpose with
    | read => exact .still silent_nil rfl rfl rfl rfl
    | write => exact effect_dirtied rfl rfl rfl rfl
  | edit ht e => exact effect_edit h ht e
  | giveBack hh hu hr => exact effect_giveBack h hh hr
  | detach | unpin => exact unfair (List.mem_singleton_self _) id
  | markDirty hn => exact effect_dirtied rfl rfl rfl rfl

theorem Act.apart (a : Act s k s') (h : s.Faithful ks) : s'.files.Apart := by
  cases a with
  | loaded ht hr => exact (Catalog.read_cases h.apart hr).1
  | wrote ht hx hr => exact (Catalog.write_cases h.apart hr).1
  | read => exact (Catalog.read_cases h.apart rfl).1
  | write => exact (Catalog.write_cases h.apart rfl).1
  | allocate => exact (Catalog.allocate_cases h.apart rfl).1
  | delete ht => exact (Bool.false_ne_true (h.undisposed ht).symm).elim
  | sync fault f =>
    show (s.files.sync fault f).1.Apart
    rw [Catalog.sync_fst]
    exact h.apart
  | @enter _ _ _ purpose => cases purpose <;> exact h.apart
  | _ => exact h.apart

/-- Every act with fair marks keeps a regular system faithful. -/
theorem Act.faithful (a : Act s k s') (hs : s.Regular) (hk : ∀ x ∈ k, x.IsFair)
    (h : s.Faithful ks) : s'.Faithful (ks ++ k) where
  accounted := a.accounted hs (fun x hx he => by rw [he] at hx; exact hk _ hx) h.accounted
  seated := a.seated hs h.distinct h.accounted h.seated
  distinct := h.distinct.congr a.registry
  apart := a.apart h
  backed := (a.effect hs hk h).backed hs h.backed
  undisposed {t task} ht := by
    cases hd : task.isDisposal with
    | false => rfl
    | true =>
      rcases a.task_back ht with hold | ⟨-, hnew⟩ | ⟨_, _, _, _, rfl, -⟩
      · exact hd.symm.trans (h.undisposed hold)
      · rcases hnew hd with hm | ⟨y, hy, hyd⟩
        · exact (hk _ hm).elim
        · exact hyd.symm.trans (h.undisposed hy)
      · cases hd

theorem Faithful.new (n : Nat) {c : Catalog} (hd : c.Distinct) (ha : c.Apart) :
    (System.new n c).Faithful [] where
  accounted := accounted_new n c
  seated := .new n c
  distinct := hd
  apart := ha
  backed i f p hc _ := by
    obtain ⟨o, ho, -⟩ := hc.1
    have hn : (System.new n c).pool.ledger.occupant? i = none := Ledger.occupant?_new n i
    exact nomatch ho.symm.trans hn
  undisposed ht := nomatch ht

section Content

variable {f : FileNo} {p : PageNo}

theorem Act.content (a : Act s k s') (hs : s.Regular) (hk : ∀ x ∈ k, x.IsFair)
    (h : s.Faithful ks) (hf : s.hasFile f) : Explained f p k (s.content f p) (s'.content f p) := by
  have he := a.effect hs hk h
  have hs' := a.regular hs
  have h' := a.faithful hs hk h
  have hf' : s'.hasFile f := (a.hasFile f).2 hf
  by_cases hi : ∃ i, s.pool.ledger.shown i = some (f, p)
  · obtain ⟨i, hi⟩ := hi
    exact he.content_seen hs hs' h'.seated h'.distinct h.backed hf' hi
  · exact he.content_unseen hs hs' h.seated h'.seated h.distinct h'.distinct hf hf'
      fun i hi' => hi ⟨i, hi'⟩

theorem Acts.content (a : Acts s k s') (hs : s.Regular) (hk : ∀ x ∈ k, x.IsFair)
    (h : s.Faithful ks) (hf : s.hasFile f) : Explained f p k (s.content f p) (s'.content f p) := by
  induction a generalizing ks with
  | done => rfl
  | @more _ _ _ k₁ _ first rest ih =>
    have hfirst : ∀ x ∈ k₁, x.IsFair := fun x hx => hk x (List.mem_append_left _ hx)
    refine (first.content hs hfirst h hf).append ?_
    refine ih (first.regular hs) (fun x hx => hk x (List.mem_append_right _ hx))
      (first.faithful hs hfirst h) ((first.hasFile f).2 hf)

end Content

/-! ### Moves -/

/-- The move is a change of a page by a writer, who is inside and has a handle for the page. -/
def Edits (s : System) (f : FileNo) (p : PageNo) (e : Page → Page) (m : Move) : Prop :=
  ∃ t h stay, s.handles.find? h = some ⟨stay, true⟩ ∧ stay.file = f ∧ stay.page = p ∧
    ((m = .edit t e ∧ ∃ e₀, s.tasks.find? t = some (.access h stay (.write e₀) .inside)) ∨
      ∃ fault, m = .resume t fault ∧ s.tasks.find? t = some (.access h stay (.write e) .inside))

/-- The move is the allocation of a page by its file. -/
def Allocates (s : System) (f : FileNo) (p : PageNo) (m : Move) : Prop :=
  ∃ t fault h, m = .resume t fault ∧ s.tasks.find? t = some (.allocate f h) ∧
    (s.files.allocate none f).2 = .ok p

theorem marks_of_edits {f : FileNo} {p : PageNo} {e : Page → Page} {m : Move}
    (h : s.Edits f p e m) :
    ∃ stay, s.marks m = [.edited stay e] ∧ stay.file = f ∧ stay.page = p := by
  obtain ⟨t, hn, stay, -, hf, hp, ⟨rfl, e₀, ht⟩ | ⟨fault, rfl, ht⟩⟩ := h
  · refine ⟨stay, ?_, hf, hp⟩
    rw [marks, ht]
  · refine ⟨stay, ?_, hf, hp⟩
    rw [marks, ht, Option.elim_some, marksOf]

theorem Seated.edits_of_tells (h : s.Seated) {stay : Stay} {e : Page → Page} {m : Move}
    (hm : s.Tells m (.edited stay e)) : s.Edits stay.file stay.page e m := by
  obtain ⟨t, hn, hm⟩ := hm
  refine ⟨t, hn, stay, ?_, rfl, rfl, hm⟩
  rcases hm with ⟨-, e₀, ht⟩ | ⟨fault, -, ht⟩
  · exact h.writing ht
  · exact h.writing ht

theorem allocates_of_tells {f : FileNo} {p : PageNo} {m : Move}
    (hm : s.Tells m (.allocating f (some p))) : s.Allocates f p m := by
  obtain ⟨t, fault, hn, rfl, ht, ho⟩ := hm
  refine ⟨t, fault, hn, rfl, ht, ?_⟩
  cases hr : (s.files.allocate none f).2 with
  | error e =>
    rw [hr] at ho
    cases ho
  | ok q =>
    rw [hr] at ho
    cases ho
    rfl

end System

theorem Reaches.faithful {n : Nat} (hn : 0 < n) {c : Catalog} (hd : c.Distinct) (ha : c.Apart)
    {h : History} {s : System} (run : Reaches Move.IsFair (.new n c) h s) : s.Faithful h.marks :=
  (run.preserve (P := System.Faithful) Mark.IsFair (.new hn c) (.new n hd ha)
    (fun _ _ hm _ hk => hm.mark hk) fun hs h hk a => a.faithful hs hk h).2

/-- In every run in which files are only touched through the pool, no page is disposed of, pins are
given back by handle and reads that succeed deliver the page, no move changes the content of any
page, with two exceptions. A writer with a handle for the page edits it, and it contains what the
edit makes of it; and a file that has just been asked for a page it did not have gives it some
content. -/
theorem content_transparent {n : Nat} (hn : 0 < n) {c : Catalog} (hd : c.Distinct) (ha : c.Apart)
    {h : History} {s : System} (run : Reaches Move.IsFair (.new n c) h s) {m : Move}
    (hp : s.Permits m) (hm : m.IsFair) {f : FileNo} (hf : s.hasFile f) (p : PageNo) :
    (∀ e, s.Edits f p e m → (s.after m).content f p = (s.content f p).map e) ∧
    ((∀ e, ¬ s.Edits f p e m) → (s.after m).content f p = s.content f p ∨
      (s.Allocates f p m ∧ s.content f p = none)) := by
  have hs := run.regular hn
  have hfaith := run.faithful hn hd ha
  have acts := System.acts_after hs.orderly hs.consistent.size_pos hp
  have he := acts.content (f := f) (p := p) hs (fun _ hk => hm.mark hk) hfaith hf
  constructor
  · intro e hedit
    obtain ⟨stay, hmarks, hfile, hpage⟩ := System.marks_of_edits hedit
    rw [hmarks, explained_singleton] at he
    exact he.trans (if_pos ⟨hfile, hpage⟩)
  · intro hno
    rcases s.marks_cases m with hnil | ⟨k, hmarks, ht⟩
    · rw [hnil] at he
      exact .inl he
    · rw [hmarks, explained_singleton] at he
      cases k with
      | edited stay e =>
        refine .inl (he.trans (if_neg ?_))
        rintro ⟨rfl, rfl⟩
        exact hno e (hfaith.seated.edits_of_tells ht)
      | allocating g offer =>
        rcases he with he | ⟨rfl, rfl, hnone⟩
        · exact .inl he
        · exact .inr ⟨System.allocates_of_tells ht, hnone⟩
      | _ => exact .inl he

/-- Somebody asks for a new page and writes to it. -/
theorem content_transparent_small : ∃ h s, Reaches Move.IsFair .small h s ∧
    s.Permits (.resume 1 none) ∧ s.Edits 0 0 (fun q => q.set 0 1) (.resume 1 none) ∧
    (s.after (.resume 1 none)).content 0 0 = some (Page.zero.set 0 1) := by
  have distinct : (Catalog.empty.openMemory "small" none).1.Distinct := by
    intro f g hf hg _
    have hf : f < 1 := hf
    have hg : g < 1 := hg
    omega
  have apart : (Catalog.empty.openMemory "small" none).1.Apart := by
    refine Catalog.apart_of_memory fun f x hf => ?_
    obtain ⟨hlt, rfl⟩ := Array.getElem?_eq_some_iff.1 hf
    obtain rfl : f = 0 := Nat.lt_one_iff.1 hlt
    exact ⟨_, rfl⟩
  have asks : System.small.Permits (.begin 0 (.allocate 0 0)) := ⟨rfl, Nat.zero_lt_one, rfl, nofun⟩
  have begun : Reaches Move.IsFair .small [] .small := .start
  -- The page is allocated, a frame is found for it, and it is loaded.
  have lent := (((begun.move asks trivial).move (m := .resume 0 none) rfl rfl).move
    (m := .resume 0 none) rfl rfl).move (m := .resume 0 none) rfl rfl
  have inside := (lent.move (m := .begin 1 (.access 0 ⟨0, 0, 0, 1⟩ (.write fun q => q.set 0 1)))
    ⟨rfl, ⟨false, rfl⟩, nofun⟩ trivial).move (m := .resume 1 none) rfl rfl
  refine ⟨_, _, inside, rfl, ⟨1, 0, ⟨0, 0, 0, 1⟩, rfl, rfl, rfl, .inr ⟨none, rfl, rfl⟩⟩, ?_⟩
  exact (content_transparent Nat.zero_lt_one distinct apart inside (m := .resume 1 none) rfl rfl
    (f := 0) Nat.zero_lt_one 0).1 _ ⟨1, 0, ⟨0, 0, 0, 1⟩, rfl, rfl, rfl, .inr ⟨none, rfl, rfl⟩⟩

theorem read_delivers {n : Nat} (hn : 0 < n) {c : Catalog} (hd : c.Distinct) (ha : c.Apart)
    {h : History} {s : System} (run : Reaches Move.IsFair (.new n c) h s) {t : TaskId}
    {k : HandleNo} {stay : Stay} (ht : s.tasks.find? t = some (.access k stay .read .inside))
    (fault : Option Fault) : ∃ q, (s.resume t fault).2.2 = some (.content q) ∧
      s.content stay.file stay.page = some q := by
  have hs := run.regular hn
  have seated := (run.faithful hn hd ha).seated
  obtain ⟨d, hk⟩ := hs.orderly.borrowed ht
  obtain ⟨o, hat, hio⟩ := seated.inside ht
  obtain ⟨hf, hp⟩ := seated.placed hk hat
  obtain ⟨-, ho⟩ := Ledger.occupantAt_frame.1 hat
  refine ⟨s.pool.buffer stay.frame, ?_, ?_⟩
  · simp only [System.resume, ht, System.advance, System.use]
  · exact System.content_of_shown hs (Ledger.shown_eq_some.2 ⟨o, ho, hio, hf, hp⟩)

end SecondChance
