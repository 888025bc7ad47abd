import SecondChance.Proofs.System.Pins

/-!
Borrowers find their pages in place.

A page that has been lent out is the page of its frame as long as the stay lasts, and whoever is
inside has it before him and not one that is still being loaded. `Turnover` says how the pages in
the frames may change while somebody else acts: a page that is pinned and has been loaded stays, and
a page that comes in begins a new generation.
-/

namespace SecondChance

namespace Task

def isInside : Task → Bool
  | .access _ _ _ .inside => true
  | _ => false

theorem IsPlain.isInside {task : Task} (hp : task.IsPlain) : task.isInside = false := by
  cases task with
  | access => exact nomatch hp.borrower?
  | _ => rfl

theorem isInside_of_transfer? {task : Task} {x : Transfer} (hx : task.transfer? = some x) :
    task.isInside = false := by
  cases task with
  | access => cases hx
  | _ => rfl

end Task

namespace Ledger

/-- What an act leaves of the pages in the frames: a page that is there afterwards was there before,
or has just come in under the next generation, and a page that is loaded and pinned stays. -/
structure Turnover (hasFile : FileNo → Prop) (l l' : Ledger) : Prop where
  back {i : FrameNo} {o' : Occupant} (ho : l'.occupant? i = some o') :
    (∃ o, l.occupant? i = some o ∧ o'.file = o.file ∧ o'.page = o.page ∧
      l'.generation i = l.generation i) ∨
    (hasFile o'.file ∧ l'.generation i = l.generation i + 1)
  forth {i : FrameNo} {o : Occupant} (ho : l.occupant? i = some o) (hp : o.pins ≠ 0)
    (hio : o.io ≠ .busy .load) :
    l'.generation i = l.generation i ∧ ∃ o', l'.occupant? i = some o' ∧ o'.io ≠ .busy .load

namespace Turnover

variable {hasFile : FileNo → Prop} {labels : Labels} {l l' : Ledger}

theorem refl (l : Ledger) : l.Turnover hasFile l where
  back ho := .inl ⟨_, ho, rfl, rfl, rfl⟩
  forth ho _ hio := ⟨rfl, _, ho, hio⟩

theorem eased (h : l.Eased labels l') : l.Turnover hasFile l' where
  back {i o'} ho := by
    obtain ⟨r, hr⟩ := h.before ho
    exact .inl ⟨_, hr, rfl, rfl, (h.after hr).1⟩
  forth {i o} ho hp hio := by
    obtain ⟨hg, ⟨r, hr⟩ | ⟨hs, -⟩⟩ := h.after ho
    · exact ⟨hg, _, hr, hio⟩
    · exact (hp (Occupant.standing_eq_available.1 hs).1).elim

theorem setOccupant {i : FrameNo} {o p : Occupant} (ho : l.occupant? i = some o)
    (hf : p.file = o.file) (hp : p.page = o.page)
    (hio : o.io ≠ .busy .load → p.io ≠ .busy .load) : l.Turnover hasFile (l.setOccupant i p) where
  back {j q} hq := by
    rw [occupant?_setOccupant (lt_size_of_occupant? ho)] at hq
    left
    by_cases hj : i = j
    · subst hj
      rw [if_pos rfl] at hq
      obtain rfl := Option.some.inj hq
      exact ⟨o, ho, hf, hp, generation_setOccupant ..⟩
    · rw [if_neg hj] at hq
      exact ⟨q, hq, rfl, rfl, generation_setOccupant ..⟩
  forth {j q} hq _ hl := by
    refine ⟨generation_setOccupant .., ?_⟩
    rw [occupant?_setOccupant (lt_size_of_occupant? ho)]
    by_cases hj : i = j
    · subst hj
      rw [ho] at hq
      obtain rfl := Option.some.inj hq
      exact ⟨p, if_pos rfl, hio hl⟩
    · exact ⟨q, (if_neg hj).trans hq, hl⟩

theorem vacate {i : FrameNo} {o : Occupant} (ho : l.occupant? i = some o)
    (hleft : o.pins = 0 ∨ o.io = .busy .load) (k : PageKey) :
    l.Turnover hasFile (l.vacate i k) where
  back {j q} hq := by
    rw [occupant?_vacate (lt_size_of_occupant? ho)] at hq
    split at hq
    · cases hq
    · exact .inl ⟨q, hq, rfl, rfl, generation_vacate ..⟩
  forth {j q} hq hp hl := by
    refine ⟨generation_vacate .., q, ?_, hl⟩
    rw [occupant?_vacate (lt_size_of_occupant? ho), if_neg, hq]
    rintro rfl
    rw [ho] at hq
    obtain rfl := Option.some.inj hq
    exact hleft.elim hp hl

theorem install {i : FrameNo} (hi : i < l.size) (ho : l.occupant? i = none) (k : PageKey)
    {file : FileNo} (hf : hasFile file) (page : PageNo) :
    l.Turnover hasFile (l.install i k file page) where
  back {j q} hq := by
    rw [occupant?_install hi] at hq
    rw [generation_install hi]
    split at hq
    · next hj =>
      obtain rfl := Option.some.inj hq
      exact .inr ⟨hf, by rw [if_pos hj]⟩
    · next hj => exact .inl ⟨q, hq, rfl, rfl, by rw [if_neg hj, Nat.add_zero]⟩
  forth {j q} hq _ hl := by
    have hj : i ≠ j := by
      rintro rfl
      rw [ho] at hq
      cases hq
    rw [generation_install hi, occupant?_install hi, if_neg hj, if_neg hj]
    exact ⟨Nat.add_zero _, q, hq, hl⟩

end Turnover

end Ledger

namespace System

variable {s s' : System} {ks k : List Mark}

theorem Regular.turnover_settle {hasFile : FileNo → Prop} (hs : s.Regular) {t : TaskId}
    {x : Transfer} (hx : s.transferOf t = some x) (ok : Bool) :
    s.pool.ledger.Turnover hasFile (s.pool.ledger.settle s.labels x ok) := by
  obtain ⟨kind, stay⟩ := x
  obtain ⟨o, hat, -, ho, hio⟩ := hs.seat hx
  cases ok with
  | true =>
    rw [Ledger.settle_succeeded hat hio]
    refine .setOccupant ho rfl rfl fun _ hl => ?_
    cases hl
  | false =>
    cases kind with
    | load =>
      rw [Ledger.settle_load_failed hat hio]
      exact .vacate ho (.inr hio) _
    | writeBack =>
      rw [Ledger.settle_writeBack_failed hat hio]
      refine .setOccupant ho rfl rfl fun _ hl => ?_
      cases hl

theorem Act.turnover (a : Act s k s') (hs : s.Regular) :
    s.pool.ledger.Turnover s.hasFile s'.pool.ledger := by
  cases a with
  | ease he => exact .eased he
  | expel ht hk ho hs => exact .vacate ho (.inl (Occupant.standing_eq_available.1 hs).1) _
  | hit ht hk ho => exact .setOccupant ho rfl rfl id
  | install ht hk hi ho => exact .install hi ho _ (hs.orderly.target ht rfl) _
  | claim ht hp ho =>
    refine .setOccupant ho rfl rfl fun _ hl => ?_
    cases hl
  | loaded ht => exact hs.turnover_settle (transferOf_eq ht) true
  | lost ht hx => exact hs.turnover_settle ((transferOf_eq ht).trans hx) false
  | wrote ht hx => exact hs.turnover_settle ((transferOf_eq ht).trans hx) true
  | unwritten ht hx => exact hs.turnover_settle ((transferOf_eq ht).trans hx) false
  | giveBack hh hu hr =>
    cases Ledger.unpinStay_cases hr with
    | stale | unpinned => exact .refl _
    | ok ho => exact .setOccupant (Ledger.occupantAt_frame.1 ho).2 rfl rfl id
  | unpin hr =>
    rcases Ledger.unpinPage_cases hr with ⟨rfl, -⟩ | ⟨i, o, -, ho, -, rfl, -⟩
    · exact .refl _
    · exact .setOccupant ho rfl rfl id
  | @enter _ _ _ purpose => cases purpose <;> exact .refl _
  | _ => exact .refl _

/-! ### Where tasks come from -/

/-- How a task can come to be what it is: it is not inside, or has just entered. -/
def Comes (s s' : System) (k : List Mark) (u : TaskId) (x : Task) : Prop :=
  (x.isInside = false ∧ (x.isDisposal = true → .disposing ∈ k ∨
    ∃ y, s.tasks.find? u = some y ∧ y.isDisposal = true)) ∨
  ∃ h stay purpose stage, x = .access h stay purpose .inside ∧
    s.tasks.find? u = some (.access h stay purpose stage) ∧
    s.pool.ledger.stillLoading stay = .ok false ∧
    ∀ e, purpose = .write e → s'.handles = (s.markDirty h).handles

theorem Comes.follow {t : TaskId} {task task' : Task} (ht : s.tasks.find? t = some task)
    (hi : task'.isInside = false) (hd : task'.isDisposal = task.isDisposal) :
    Comes s s' k t task' :=
  .inl ⟨hi, fun h => .inr ⟨task, ht, hd.symm.trans h⟩⟩

/-- A task that is there after an act was there before, or has come to be what it is. -/
theorem Act.task_back (a : Act s k s') {u : TaskId} {x : Task} (hx : s'.tasks.find? u = some x) :
    s.tasks.find? u = some x ∨ Comes s s' k u x := by
  have put {t : TaskId} {task : Task} (hx : (s.setTask t task).tasks.find? u = some x)
      (hn : Comes s s' k t task) : s.tasks.find? u = some x ∨ Comes s s' k u x := by
    rcases of_find?_setTask hx with ⟨rfl, rfl⟩ | ⟨-, hx⟩
    · exact .inr hn
    · exact .inl hx
  cases a with
  | ease | expel | latch | fill | read | write | allocate | delete | sync | edit | giveBack |
    detach | markDirty | unpin => exact .inl hx
  | stop | lost | unwritten | quit | hit | loaded => exact .inl (of_find?_endTask hx).2
  | @start _ task ht hp =>
    refine put hx (.inl ⟨hp.isInside, fun hd => .inl ?_⟩)
    rw [Task.opening, if_pos hd]
    exact List.mem_singleton_self _
  | turn ht hp hp' hn => exact put hx (.follow ht hp'.isInside hn.isDisposal)
  | install ht => exact put hx (.follow ht rfl rfl)
  | claim ht hp ho hio hd hx' hn =>
    exact put hx (.follow ht (Task.isInside_of_transfer? hx') hn.isDisposal)
  | wrote ht hx' hr hp hn => exact put hx (.follow ht hp.isInside hn.isDisposal)
  | borrow purpose ht hh =>
    exact put hx (.inl ⟨rfl, fun hd => (Bool.false_ne_true hd).elim⟩)
  | @queue t h stay purpose stage stage' ht hs =>
    refine put hx (.follow ht ?_ rfl)
    cases stage' with
    | inside => exact (hs rfl).elim
    | _ => rfl
  | @enter t h stay purpose stage ht hl =>
    cases purpose with
    | read =>
      refine put hx (.inr ⟨h, stay, .read, stage, rfl, ht, hl, fun e he => ?_⟩)
      cases he
    | write e => exact put hx (.inr ⟨h, stay, .write e, stage, rfl, ht, hl, fun _ _ => rfl⟩)

/-! ### Borrowers and their pages -/

/-- Every borrower has the page that was asked for, as long as it is there; whoever is inside has it
there, and a writer who is inside will give it back dirty. -/
structure Seated (s : System) : Prop where
  sized : s.pool.buffers.size = s.pool.ledger.size
  opened {i : FrameNo} {o : Occupant} (ho : s.pool.ledger.occupant? i = some o) : s.hasFile o.file
  placed {h : HandleNo} {x : Handle} {o : Occupant} (hh : s.handles.find? h = some x)
    (ho : (s.pool.ledger.frame x.stay.frame).occupantAt x.stay.generation = some o) :
    o.file = x.stay.file ∧ o.page = x.stay.page
  inside {t : TaskId} {h : HandleNo} {stay : Stay} {purpose : Access}
    (ht : s.tasks.find? t = some (.access h stay purpose .inside)) :
    ∃ o, (s.pool.ledger.frame stay.frame).occupantAt stay.generation = some o ∧
      o.io ≠ .busy .load
  writing {t : TaskId} {h : HandleNo} {stay : Stay} {e : Page → Page}
    (ht : s.tasks.find? t = some (.access h stay (.write e) .inside)) :
    s.handles.find? h = some ⟨stay, true⟩

theorem Seated.new (n : Nat) (c : Catalog) : (System.new n c).Seated where
  sized := by
    show (Array.replicate n Page.zero).size = (Array.replicate n Frame.unused).size
    rw [Array.size_replicate, Array.size_replicate]
  opened {i o} ho := by
    have hn : (System.new n c).pool.ledger.occupant? i = none := Ledger.occupant?_new n i
    rw [hn] at ho
    cases ho
  placed hh := nomatch hh
  inside ht := nomatch ht
  writing ht := nomatch ht

theorem Act.buffers_size (a : Act s k s') : s'.pool.buffers.size = s.pool.buffers.size := by
  cases a with
  | fill | loaded | edit => exact Array.size_setIfInBounds
  | @enter _ _ _ purpose => cases purpose <;> rfl
  | _ => rfl

/-- A handle that is there after an act was there before, with the same stay, or its stay is that of
a page now in the frame. -/
theorem Act.handle_back (a : Act s k s') (hs : s.Regular) (hd : s.files.Distinct)
    (opened : ∀ {i o}, s.pool.ledger.occupant? i = some o → s.hasFile o.file) {j : HandleNo}
    {x : Handle} (hx : s'.handles.find? j = some x) :
    (∃ y, s.handles.find? j = some y ∧ y.stay = x.stay) ∨
      ∃ o, (s.pool.ledger.frame x.stay.frame).occupantAt x.stay.generation = some o ∧
        o.file = x.stay.file ∧ o.page = x.stay.page := by
  cases a with
  | @hit t file page hn w look i o ht hk ho =>
    rcases of_find?_lendTo hx with hst | hold
    · right
      obtain ⟨o', ho', hkey⟩ := hs.consistent.occupant?_of_find? hk
      rw [ho] at ho'
      obtain rfl := Option.some.inj ho'
      obtain ⟨hf, hp⟩ := hd.key_inj (opened ho) (hs.orderly.target ht rfl) hkey
      rw [← hst]
      exact ⟨o, Ledger.occupantAt_frame.2 ⟨rfl, ho⟩, hf, hp⟩
    · exact .inl hold
  | loaded ht =>
    rcases of_find?_lendTo hx with hst | hold
    · right
      obtain ⟨o, ho, -, hf, hp⟩ := hs.escorted.occupantAt (transferOf_eq ht)
      rw [← hst]
      exact ⟨o, ho, hf, hp⟩
    · exact .inl hold
  | @enter _ _ _ purpose =>
    cases purpose with
    | read => exact .inl ⟨x, hx, rfl⟩
    | write => exact .inl (of_find?_markDirty hx)
  | giveBack | detach => exact .inl (of_find?_detach hx)
  | markDirty => exact .inl (of_find?_markDirty hx)
  | _ => exact .inl ⟨x, hx, rfl⟩

theorem Act.handle_forth (a : Act s k s') (o : s.Orderly) {j : HandleNo} {stay : Stay}
    (hj : s.handles.find? j = some ⟨stay, true⟩) (hu : ¬ s.IsUnused j) :
    s'.handles.find? j = some ⟨stay, true⟩ := by
  cases a with
  | hit ht | loaded ht => exact find?_lendTo_of_old (o.unfilled ht rfl) hj _
  | @enter _ i _ purpose =>
    cases purpose with
    | read => exact hj
    | write => exact find?_markDirty_of_dirty hj rfl
  | giveBack hh hi | detach hh hi =>
    refine (find?_detach_of_ne ?_).trans hj
    rintro rfl
    exact hu hi
  | markDirty i => exact find?_markDirty_of_dirty hj rfl
  | _ => exact hj

/-- Every act of a regular system whose pins are accounted for keeps it seated. -/
theorem Act.seated (a : Act s k s') (hs : s.Regular) (hd : s.files.Distinct)
    (ha : s.pool.ledger.Accounted (s.claims ks) (lostIn ks)) (h : s.Seated) : s'.Seated := by
  have turn := a.turnover hs
  constructor
  case sized => rw [a.buffers_size, a.size, h.sized]
  case opened =>
    intro i o' ho'
    rw [a.hasFile]
    rcases turn.back ho' with ⟨o, ho, hf, -⟩ | ⟨hf, -⟩
    · rw [hf]
      exact h.opened ho
    · exact hf
  case placed =>
    intro j x o' hx ho'
    obtain ⟨hg', ho'⟩ := Ledger.occupantAt_frame.1 ho'
    -- A stay in a generation that has only just begun cannot have been lent out before.
    rcases a.handle_back hs hd h.opened hx with ⟨y, hy, hst⟩ | ⟨p, hp, hpf, hpp⟩
    · rcases turn.back ho' with ⟨o, ho, hf, hp, hg⟩ | ⟨-, hg⟩
      · rw [← hst] at ho hg hg' ⊢
        rw [hf, hp]
        exact h.placed hy (Ledger.occupantAt_frame.2 ⟨hg.symm.trans hg', ho⟩)
      · have hz := ha.fresh (i := y.stay.frame) (g := y.stay.generation) (by rw [hst]; omega)
        exact (claims_ne_zero hy ks hz).elim
    · obtain ⟨hgp, hp⟩ := Ledger.occupantAt_frame.1 hp
      rcases turn.back ho' with ⟨o, ho, hf, hp', -⟩ | ⟨-, hg⟩
      · rw [hp] at ho
        obtain rfl := Option.some.inj ho
        exact ⟨hf.trans hpf, hp'.trans hpp⟩
      · omega
  case inside =>
    intro t j stay purpose ht
    have found : ∃ o, (s.pool.ledger.frame stay.frame).occupantAt stay.generation = some o ∧
        o.pins ≠ 0 ∧ o.io ≠ .busy .load := by
      rcases a.task_back ht with ht | ⟨hi, -⟩ | ⟨j', stay', purpose', stage, he, ht, hl, -⟩
      · obtain ⟨o, ho, hio⟩ := h.inside ht
        obtain ⟨d, hj⟩ := hs.orderly.borrowed ht
        exact ⟨o, ho, pins_ne_zero ha hj ho, hio⟩
      · cases hi
      · cases he
        rcases s.pool.ledger.stillLoading_cases stay with hst | ⟨o, ho, hp, hst⟩
        · rw [hst] at hl
          cases hl
        · rw [hst] at hl
          exact ⟨o, ho, hp, of_decide_eq_false (Except.ok.inj hl)⟩
    obtain ⟨o, ho, hp, hio⟩ := found
    obtain ⟨hg, ho⟩ := Ledger.occupantAt_frame.1 ho
    obtain ⟨hg', o', ho', hio'⟩ := turn.forth ho hp hio
    exact ⟨o', Ledger.occupantAt_frame.2 ⟨hg'.trans hg, ho'⟩, hio'⟩
  case writing =>
    intro t j stay e ht
    rcases a.task_back ht with ht | ⟨hi, -⟩ | ⟨j', stay', purpose, stage, he, ht, -, hw⟩
    · refine a.handle_forth hs.orderly (h.writing ht) fun hu => ?_
      exact (isUnused_iff.1 hu t _ ht).2 rfl
    · cases hi
    · cases he
      obtain ⟨d, hj⟩ := hs.orderly.borrowed ht
      rw [hw e rfl, find?_markDirty, if_pos rfl, hj]
      rfl

end System

end SecondChance
