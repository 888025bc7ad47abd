import SecondChance.Proofs.System.SecondChances

/-!
What a move does to the page in one frame.

A page that is in a frame after a move has just been given the frame, or it was there before. In the
second case the move has made one change to it at most: the hand has passed it, somebody has got it
or given it back, it has been claimed, or its transfer has ended. The changes are listed together
with what the move was, so that whoever keeps account of a page can go through the list.
-/

namespace SecondChance

namespace Ledger

variable {labels : Labels} {l l' : Ledger} {i j : FrameNo} {o p q : Occupant} {key : PageKey}

theorem of_occupant?_setOccupant (hp : l.occupant? j = some p)
    (ho : (l.setOccupant j q).occupant? i = some o) :
    j = i ∧ o = q ∧ l.occupant? i = some p ∨ j ≠ i ∧ l.occupant? i = some o := by
  rw [occupant?_setOccupant (lt_size_of_occupant? hp)] at ho
  split at ho
  · next hj =>
    subst hj
    exact .inl ⟨rfl, (Option.some.inj ho).symm, hp⟩
  · next hj => exact .inr ⟨hj, ho⟩

theorem of_occupant?_vacate (hp : l.occupant? j = some p)
    (ho : (l.vacate j key).occupant? i = some o) : l.occupant? i = some o := by
  rw [occupant?_vacate (lt_size_of_occupant? hp)] at ho
  split at ho
  · cases ho
  · exact ho

theorem of_occupant?_install {file : FileNo} {page : PageNo} (hj : j < l.size)
    (ho : (l.install j key file page).occupant? i = some o) :
    j = i ∧ o = .arriving file page ∨ j ≠ i ∧ l.occupant? i = some o := by
  rw [occupant?_install hj] at ho
  split at ho
  · next hi => exact .inl ⟨hi, (Option.some.inj ho).symm⟩
  · next hi => exact .inr ⟨hi, ho⟩

theorem Tour.used {vs : List FrameNo} (h : l.Tour vs l') (ho : l'.occupant? i = some o) :
    ∃ p, l.occupant? i = some p ∧ ∃ r, o = { p with referenced := r } := by
  obtain ⟨p, hp, rfl⟩ := h.before ho
  refine ⟨p, hp, ?_⟩
  split
  · exact ⟨false, rfl⟩
  · exact ⟨p.referenced, rfl⟩

end Ledger

def Acquisition.installed? : Acquisition → Option Stay
  | .load stay _ => some stay
  | _ => none

namespace System

variable {s : System} {m : Move} {i : FrameNo} {o o' : Occupant}

/-- The stay that begins in a move. -/
def installed? (s : System) (m : Move) : Option Stay := (s.answer? m).bind (·.installed?)

/-- Whether the call of a transfer comes to a good end if it meets the given fault. -/
def succeeds (s : System) (x : Transfer) (fault : Option Fault) : Bool :=
  match x.kind with
  | .load =>
    (s.files.read fault x.stay.file x.stay.page (.page (s.pool.buffer x.stay.frame))).2.isOk
  | .writeBack =>
    (s.files.write fault x.stay.file x.stay.page (.page (s.pool.buffer x.stay.frame))).2.isOk

/-- The transfer that ends in a move, and whether it has succeeded. -/
def ended? (s : System) : Move → Option (Transfer × Bool)
  | .resume t fault => (s.transferOf t).map fun x => (x, s.succeeds x fault)
  | .cancel t => (s.transferOf t).map fun x => (x, false)
  | _ => none

/-- What a move in which no transfer ends makes of the page `o` in frame `i`. -/
inductive Alters (s : System) (m : Move) (i : FrameNo) (o : Occupant) : Occupant → Prop
  | used (r : Bool) : Alters s m i o { o with referenced := r }
  | pinned : Alters s m i o o.pin
  | claimed (r : Bool) (hio : o.io = .idle) (hd : o.dirty = true) :
      Alters s m i o { o.claimed with referenced := r }
  | givenBack {x : Handle} (hx : s.givenBack? m = some x) (hi : x.stay.frame = i)
      (hat : (s.pool.ledger.frame x.stay.frame).occupantAt x.stay.generation = some o)
      (hp : o.pins ≠ 0) : Alters s m i o (o.returned x.dirty)
  | unpinned {file : FileNo} {page : PageNo} {dirty : Bool} (hm : m = .unpin file page dirty)
      (hk : s.pool.ledger.table.find? (s.labels.key file page) = some i)
      (hp : o.pins ≠ 0) : Alters s m i o (o.returned dirty)

theorem Alters.same : s.Alters m i o o := .used o.referenced

theorem Alters.file_page (h : s.Alters m i o o') : o'.file = o.file ∧ o'.page = o.page := by
  cases h <;> exact ⟨rfl, rfl⟩

/-- Where the page comes from that is in a frame after a move in which no transfer ends. -/
inductive Fate (s : System) (m : Move) (l' : Ledger) (i : FrameNo) (o' : Occupant) : Prop
  | arrived (ha : s.installed? m = some (l'.stayOf i o')) (ho : o' = .arriving o'.file o'.page)
      (hg : l'.generation i = s.pool.ledger.generation i + 1)
  | stayed {o : Occupant} (ho : s.pool.ledger.occupant? i = some o)
      (hg : l'.generation i = s.pool.ledger.generation i) (alters : s.Alters m i o o')

theorem fate_of_install {l : Ledger} {j : FrameNo} {file : FileNo} {page : PageNo} {key : PageKey}
    {d : Option Departure} (hj : j < l.size) (hg : ∀ i, l.generation i = s.pool.ledger.generation i)
    (ha : s.answer? m = some (.load ⟨file, page, j, l.generation j + 1⟩ d))
    (back : ∀ {i o}, l.occupant? i = some o →
      ∃ p, s.pool.ledger.occupant? i = some p ∧ ∃ r, o = { p with referenced := r })
    (ho' : (l.install j key file page).occupant? i = some o') :
    s.Fate m (l.install j key file page) i o' := by
  have generation := Ledger.generation_install hj key file page i
  rcases Ledger.of_occupant?_install hj ho' with ⟨rfl, rfl⟩ | ⟨hne, ho⟩
  · rw [if_pos rfl] at generation
    refine .arrived ?_ rfl (by rw [generation, hg])
    rw [installed?, ha, Ledger.stayOf, ← Ledger.generation, generation]
    rfl
  · rw [if_neg hne, Nat.add_zero, hg] at generation
    obtain ⟨p, hp, r, rfl⟩ := back ho
    exact .stayed hp generation (.used r)

theorem Looks.fate (hs : s.Regular) {file : FileNo} {page : PageNo} {written : Option Stay}
    (h : s.Looks m file page written) (ho' : (s.after m).pool.ledger.occupant? i = some o') :
    s.Fate m (s.after m).pool.ledger i o' := by
  obtain ⟨r, ha, seeks⟩ := h.seeks hs
  generalize (s.after m).pool.ledger = l' at seeks ho' ⊢
  generalize s.visits m = vs at seeks
  have rests {l : Ledger} (tour : s.pool.ledger.Tour vs l) (ho : l.occupant? i = some o') :
      s.Fate m l i o' := by
    obtain ⟨p, hp, r, rfl⟩ := tour.used ho
    exact .stayed hp (tour.generation i) (.used r)
  cases seeks with
  | @hit j p hp =>
    have generation := s.pool.ledger.generation_setOccupant j i p.pin
    rcases Ledger.of_occupant?_setOccupant hp ho' with ⟨rfl, rfl, -⟩ | ⟨-, ho⟩
    · exact .stayed hp generation .pinned
    · exact .stayed ho generation .same
  | astray => exact .stayed ho' rfl .same
  | @reclaimed stay p hw hp hr =>
    have hj : stay.frame < (s.pool.ledger.vacate stay.frame (p.key s.labels)).size := by
      rw [Ledger.size_vacate]
      exact Ledger.lt_size_of_occupant? hp
    refine fate_of_install (d := some (.written p.page)) hj (fun i => Ledger.generation_vacate ..) ?_
      (fun {k q} hq => ?_) ho'
    · rw [ha, Ledger.generation_vacate]
      rfl
    · exact ⟨q, Ledger.of_occupant?_vacate hp hq, q.referenced, rfl⟩
  | @placed _ l j left finds =>
    obtain ⟨us, l₁, -, -, tour, yields⟩ := finds.found
    refine fate_of_install finds.vacant.1 (fun k => ?_) ha (fun {k q} hq => ?_) ho'
    · cases yields with
      | vacant => exact tour.generation k
      | evicted => exact (Ledger.generation_vacate ..).trans (tour.generation k)
    · cases yields with
      | vacant => exact tour.used hq
      | evicted hp => exact tour.used (Ledger.of_occupant?_vacate hp hq)
  | @claimed _ _ stay finds =>
    obtain ⟨us, l₁, -, -, tour, yields⟩ := finds.found
    cases yields with
    | @claimed j p hp hst hd =>
      have generation := (l₁.generation_setOccupant j i p.claimed).trans (tour.generation i)
      rcases Ledger.of_occupant?_setOccupant hp ho' with ⟨rfl, rfl, -⟩ | ⟨-, ho⟩
      · obtain ⟨q, hq, r, rfl⟩ := tour.used hp
        exact .stayed hq generation (.claimed r (Occupant.standing_eq_available.1 hst).2 hd)
      · obtain ⟨q, hq, r, rfl⟩ := tour.used ho
        exact .stayed hq generation (.used r)
  | waits tour | exhausted tour => exact rests tour ho'

theorem Deed.fate {l' : Ledger} {buffers : Array Page} {files : Catalog}
    (d : s.Deed m l' buffers files) (looks : ∀ file page written, ¬ s.Looks m file page written)
    (he : s.ended? m = none) (ho' : l'.occupant? i = some o') : s.Fate m l' i o' := by
  have still {l : Ledger} (hl : s.pool.ledger.Thinned l)
      (ho : s.pool.ledger.occupant? i = some o') : s.Fate m l i o' :=
    .stayed ho (hl.generation i) .same
  have moves {t : TaskId} (fault : Option Fault) {x : Transfer} (hx : s.transferOf t = some x)
      (hm : m = .resume t fault ∨ m = .cancel t) : False := by
    rcases hm with rfl | rfl <;> simp [ended?, hx] at he
  cases d with
  | fetch ht => exact (looks _ _ _ ⟨_, _, _, _, rfl, ht⟩).elim
  | expel ht he =>
    have thinned := he.thinned
    cases he with
    | emptied hk ho => exact still thinned (Ledger.of_occupant?_vacate ho ho')
    | _ => exact still thinned ho'
  | flushFile hf =>
    have thinned := hf.thinned
    cases hf with
    | claimed ho hid hst hd =>
      rcases Ledger.of_occupant?_setOccupant ho ho' with ⟨rfl, rfl, -⟩ | ⟨-, ho'⟩
      · exact .stayed ho (thinned.generation _)
          (.claimed _ (Occupant.standing_eq_available.1 hst).2 hd)
      · exact still thinned ho'
    | emptied ho => exact still thinned (Ledger.of_occupant?_vacate ho ho')
    | _ => exact still thinned ho'
  | flushAll hf =>
    have thinned := hf.thinned
    cases hf with
    | claimed ho hio hd =>
      rcases Ledger.of_occupant?_setOccupant ho ho' with ⟨rfl, rfl, -⟩ | ⟨-, ho'⟩
      · exact .stayed ho (thinned.generation _) (.claimed _ hio hd)
      · exact still thinned ho'
    | _ => exact still thinned ho'
  | giveBack hr hx =>
    have thinned := hr.thinned
    cases hr with
    | ok hat hp =>
      have ho := (Ledger.occupantAt_frame.1 hat).2
      rcases Ledger.of_occupant?_setOccupant ho ho' with ⟨hi, rfl, -⟩ | ⟨-, ho'⟩
      · exact .stayed (hi ▸ ho) (thinned.generation _) (.givenBack hx hi hat hp)
      · exact still thinned ho'
    | _ => exact still thinned ho'
  | unpin hr =>
    have thinned := Ledger.thinned_unpinPage hr
    rcases Ledger.unpinPage_cases hr with ⟨rfl, -⟩ | ⟨j, p, hk, hp, hpins, rfl, -⟩
    · exact still thinned ho'
    · rcases Ledger.of_occupant?_setOccupant hp ho' with ⟨rfl, rfl, -⟩ | ⟨-, ho'⟩
      · exact .stayed hp (thinned.generation _) (.unpinned rfl hk hpins)
      · exact still thinned ho'
  | load hx => exact (moves _ hx (.inl rfl)).elim
  | save hx => exact (moves _ hx (.inl rfl)).elim
  | giveUp hx => exact (moves none hx (.inr rfl)).elim
  | rest | fill | strike | edit | allocate | delete => exact still (.refl _) ho'

theorem fate_after (hs : s.Regular) (hp : s.Permits m) (he : s.ended? m = none)
    (ho' : (s.after m).pool.ledger.occupant? i = some o') :
    s.Fate m (s.after m).pool.ledger i o' := by
  by_cases h : ∃ file page written, s.Looks m file page written
  · obtain ⟨file, page, written, h⟩ := h
    exact h.fate hs ho'
  · simp only [not_exists] at h
    exact (does_after hs.consistent.size_pos hp).fate h he ho'

/-! ### The end of a transfer -/

theorem ledger_finishTransfer (s : System) (t : TaskId) (x : Transfer) (fault : Option Fault) :
    (s.finishTransfer t x fault).1.pool.ledger =
      s.pool.ledger.settle s.labels x (s.succeeds x fault) := by
  obtain ⟨kind, stay⟩ := x
  cases kind with
  | load => exact s.ledger_finishLoad t stay fault
  | writeBack =>
    have hl := Catalog.registry_write s.files fault stay.file stay.page
      (.page (s.pool.buffer stay.frame))
    simp only [finishTransfer, finishWriteBack, succeeds]
    generalize s.files.write fault stay.file stay.page _ = p at hl ⊢
    obtain ⟨files, r⟩ := p
    cases r <;> simp only [Catalog.labels_of_registry hl] <;> rfl

theorem ledger_resume_move {t : TaskId} {fault : Option Fault} {x : Transfer}
    (hx : s.transferOf t = some x) : (s.after (.resume t fault)).pool.ledger =
      s.pool.ledger.settle s.labels x (s.succeeds x fault) := by
  rw [← s.ledger_finishTransfer t]
  obtain ⟨task, ht, hx⟩ := Option.bind_eq_some_iff.1 hx
  rw [ledger_resume ht]
  cases task with
  | fetch _ _ _ _ stage =>
    cases stage with
    | look => cases hx
    | move y =>
      obtain rfl := Option.some.inj hx
      exact ledger_moveForFetch ..
  | flushFile _ _ _ stage | flushAll _ _ stage =>
    cases stage with
    | look => cases hx
    | move y =>
      obtain rfl := Option.some.inj hx
      simp only [advance]
      split <;> next hr => rw [hr]
  | _ => cases hx

theorem cancel_of_moving {t : TaskId} {x : Transfer} (hx : s.transferOf t = some x) :
    s.after (.cancel t) =
      (s.endTask t).setPool ((s.pool.leave x.stay.frame t).settle s.labels x false) := by
  obtain ⟨task, ht, hx⟩ := Option.bind_eq_some_iff.1 hx
  simp only [after, cancel, ht]
  cases task with
  | fetch _ _ _ _ stage | flushFile _ _ _ stage | flushAll _ _ stage =>
    cases stage with
    | look => cases hx
    | move y =>
      obtain rfl := Option.some.inj hx
      rfl
  | _ => cases hx

theorem ledger_cancel_move {t : TaskId} {x : Transfer} (hx : s.transferOf t = some x) :
    (s.after (.cancel t)).pool.ledger = s.pool.ledger.settle s.labels x false := by
  rw [cancel_of_moving hx]
  rfl

theorem ledger_of_ended {x : Transfer} {ok : Bool} (he : s.ended? m = some (x, ok)) :
    (s.after m).pool.ledger = s.pool.ledger.settle s.labels x ok := by
  cases m with
  | resume t fault =>
    obtain ⟨y, hx, he⟩ := Option.map_eq_some_iff.1 he
    obtain ⟨rfl, rfl⟩ := Prod.mk.inj he
    exact ledger_resume_move hx
  | cancel t =>
    obtain ⟨y, hx, he⟩ := Option.map_eq_some_iff.1 he
    obtain ⟨rfl, rfl⟩ := Prod.mk.inj he
    exact ledger_cancel_move hx
  | _ => cases he

theorem transferOf_of_ended {x : Transfer} {ok : Bool} (he : s.ended? m = some (x, ok)) :
    ∃ t, s.transferOf t = some x := by
  cases m with
  | resume t fault | cancel t =>
    obtain ⟨y, hx, he⟩ := Option.map_eq_some_iff.1 he
    obtain ⟨rfl, -⟩ := Prod.mk.inj he
    exact ⟨t, hx⟩
  | _ => cases he

/-- The page of a transfer that has ended is at rest, and dirty if it could not be written; if it
could not be read, it is gone. Nothing happens to the others. -/
theorem Regular.of_ended (hs : s.Regular) {x : Transfer} {ok : Bool}
    (he : s.ended? m = some (x, ok)) (ho' : (s.after m).pool.ledger.occupant? i = some o') :
    (s.after m).pool.ledger.generation i = s.pool.ledger.generation i ∧ ∃ o,
      s.pool.ledger.occupant? i = some o ∧
      ((x.stay.frame ≠ i ∧ o' = o) ∨
        (x.stay = s.pool.ledger.stayOf i o ∧ o.io = .busy x.kind ∧
          (ok = true ∧ o' = { o with io := .idle } ∨
            ok = false ∧ x.kind = .writeBack ∧ o' = { o with io := .idle, dirty := true }))) := by
  obtain ⟨t, hx⟩ := transferOf_of_ended he
  rw [ledger_of_ended he] at ho' ⊢
  refine ⟨Ledger.generation_settle .., ?_⟩
  obtain ⟨kind, stay⟩ := x
  obtain ⟨o, hat, -, ho, hio⟩ := hs.seat hx
  obtain ⟨p, hp, -, hst⟩ := hs.escorted.seated hx
  obtain rfl := Option.some.inj (ho.symm.trans hp)
  cases ok with
  | true =>
    rw [Ledger.settle_succeeded hat hio] at ho'
    rcases Ledger.of_occupant?_setOccupant ho ho' with ⟨rfl, rfl, -⟩ | ⟨hne, ho'⟩
    · exact ⟨o, ho, .inr ⟨hst, hio, .inl ⟨rfl, rfl⟩⟩⟩
    · exact ⟨o', ho', .inl ⟨hne, rfl⟩⟩
  | false =>
    cases kind with
    | load =>
      rw [Ledger.settle_load_failed hat hio,
        Ledger.occupant?_vacate (Ledger.lt_size_of_occupant? ho)] at ho'
      split at ho'
      · cases ho'
      · next hne => exact ⟨o', ho', .inl ⟨hne, rfl⟩⟩
    | writeBack =>
      rw [Ledger.settle_writeBack_failed hat hio] at ho'
      rcases Ledger.of_occupant?_setOccupant ho ho' with ⟨rfl, rfl, -⟩ | ⟨hne, ho'⟩
      · exact ⟨o, ho, .inr ⟨hst, hio, .inr ⟨rfl, rfl, rfl⟩⟩⟩
      · exact ⟨o', ho', .inl ⟨hne, rfl⟩⟩

end System

end SecondChance
