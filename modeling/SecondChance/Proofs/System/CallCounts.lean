import SecondChance.Proofs.System.FrameChanges
import SecondChance.Proofs.System.PinReturns

/-!
How often a pool calls its files.

A page is read when it has just been given a frame, and not again as long as it has the frame:
whoever asks for it meanwhile gets it as it is, or waits for the one load. And a page is written
because somebody gave it back dirty. Each return of that kind pays for one write that succeeds: the
page is dirty until it is claimed to be written back, is being written back from then on, and is
dirty once more if that fails, so that whatever becomes of a write, no more than what was paid for
is still to come.
-/

namespace SecondChance

/-- How many times the page is still to be written: once if it is dirty, and once if it is being
written back. -/
def Occupant.owed (o : Occupant) : Nat :=
  o.dirty.toNat + if o.io = .busy .writeBack then 1 else 0

namespace System

/-- The stay whose page has been read, with or without success. -/
def read? (s : System) (m : Move) : Option Stay :=
  match s.ended? m with
  | some (⟨.load, stay⟩, _) => some stay
  | _ => none

/-- The page that has been written with success. -/
def saved? (s : System) (m : Move) : Option (FileNo × PageNo) :=
  match s.ended? m with
  | some (⟨.writeBack, stay⟩, true) => some (stay.file, stay.page)
  | _ => none

/-- The page that somebody who has it gives back dirty. -/
def soiled? (s : System) (m : Move) : Option (FileNo × PageNo) :=
  match m with
  | .unpin file page true =>
    match (s.pool.ledger.unpinPage s.labels file page true).2 with
    | .ok (some _) => some (file, page)
    | _ => none
  | _ =>
    match s.givenBack? m with
    | some ⟨stay, true⟩ =>
      match (s.pool.ledger.unpinStay s.labels stay true).2 with
      | .ok () => some (stay.file, stay.page)
      | .error _ => none
    | _ => none

end System

namespace History

/-- The stays that have begun, the latest first. -/
def installs (h : History) : List Stay := h.filterMap fun y => y.1.installed? y.2

def reads (h : History) : List Stay := h.filterMap fun y => y.1.read? y.2

def saves (h : History) (file : FileNo) (page : PageNo) : Nat :=
  h.countP fun y => y.1.saved? y.2 = some (file, page)

/-- How many times a page has been given back dirty. -/
def soilings (h : History) (file : FileNo) (page : PageNo) : Nat :=
  h.countP fun y => y.1.soiled? y.2 = some (file, page)

variable {h : History} {s : System} {m : Move} {file : FileNo} {page : PageNo}

theorem mem_filterMap_cons {g : System × Move → Option Stay} {x : Stay} :
    x ∈ List.filterMap g ((s, m) :: h) ↔ g (s, m) = some x ∨ x ∈ h.filterMap g := by
  simp [List.mem_filterMap]

theorem nodup_filterMap_cons {g : System × Move → Option Stay} (hh : (h.filterMap g).Nodup)
    (new : ∀ x, g (s, m) = some x → x ∉ h.filterMap g) :
    (List.filterMap g ((s, m) :: h)).Nodup := by
  rw [List.filterMap_cons]
  split
  · exact hh
  · next hx => exact List.nodup_cons.2 ⟨new _ hx, hh⟩

theorem saves_cons : saves ((s, m) :: h) file page =
    h.saves file page + if s.saved? m = some (file, page) then 1 else 0 := by
  simp only [saves, List.countP_cons, decide_eq_true_eq]

theorem soilings_cons : soilings ((s, m) :: h) file page =
    h.soilings file page + if s.soiled? m = some (file, page) then 1 else 0 := by
  simp only [soilings, List.countP_cons, decide_eq_true_eq]

theorem soilings_le_cons : h.soilings file page ≤ soilings ((s, m) :: h) file page := by
  rw [soilings_cons]
  exact Nat.le_add_right ..

end History

namespace System

variable {s : System} {m : Move} {i : FrameNo} {o o' : Occupant}

/-! ### Looks that need no call -/

theorem Looks.hit (hs : s.Regular) {file : FileNo} {page : PageNo} {w : Option Stay}
    (h : s.Looks m file page w) (ho : s.pool.ledger.occupant? i = some o) (hf : o.file = file)
    (hp : o.page = page) : s.answer? m = some (.hit (s.pool.ledger.stayOf i o) (o.pins + 1)) := by
  obtain ⟨t, fault, k, look, rfl, ht⟩ := h
  subst hf hp
  have hk : s.pool.ledger.table.find? (s.labels.key o.file o.page) = some i :=
    hs.consistent.find?_key ho
  simp only [answer?, ht, Ledger.acquire, hk, ho]
  rfl

/-- A look leaves the files as they are. -/
theorem Looks.files (hn : 0 < s.pool.ledger.size) {file : FileNo} {page : PageNo} {w : Option Stay}
    (h : s.Looks m file page w) : (s.after m).files = s.files := by
  obtain ⟨t, fault, k, look, rfl, ht⟩ := h
  have deed : s.Does (.resume t fault) (s.after (.resume t fault)) := by
    rw [after, resume_fst ht]
    exact (does_advance hn ht).turnTo t _
  have uncalled : s.called? (.resume t fault) = none := transferOf_eq ht
  rcases deed.usesFiles.of_uncalled uncalled with same | ⟨u, _, hm, other⟩
  · exact same
  · obtain ⟨rfl, -⟩ := Move.resume.inj hm
    rcases other with ⟨_, _, ht', -⟩ | ⟨_, _, ht', -⟩ <;> cases ht.symm.trans ht'

theorem generation_installed (hs : s.Regular) {stay : Stay} (hi : s.installed? m = some stay) :
    stay.generation = s.pool.ledger.generation stay.frame + 1 ∧
      (s.after m).pool.ledger.generation stay.frame = stay.generation := by
  obtain ⟨a, ha, hi⟩ := Option.bind_eq_some_iff.1 hi
  have looks : ∃ file page written, s.Looks m file page written := by
    by_contra h
    simp only [not_exists] at h
    rw [(visits_answer?_of_not_looks h).2] at ha
    cases ha
  obtain ⟨file, page, written, looks⟩ := looks
  obtain ⟨r, hr, seeks⟩ := looks.seeks hs
  generalize (s.after m).pool.ledger = l' at seeks ⊢
  generalize s.visits m = vs at seeks
  rw [ha] at hr
  cases seeks with
  | @reclaimed stay p hw hp =>
    obtain rfl := Option.some.inj hr
    obtain rfl := Option.some.inj hi
    have hj : stay.frame < (s.pool.ledger.vacate stay.frame (p.key s.labels)).size := by
      rw [Ledger.size_vacate]
      exact Ledger.lt_size_of_occupant? hp
    have generation := Ledger.generation_install hj (s.labels.key file page) file page stay.frame
    rw [if_pos rfl, Ledger.generation_vacate] at generation
    exact ⟨rfl, generation⟩
  | @placed _ l j left finds =>
    obtain rfl := Option.some.inj hr
    obtain rfl := Option.some.inj hi
    have generation := Ledger.generation_install finds.vacant.1 (s.labels.key file page) file page j
    rw [if_pos rfl] at generation
    obtain ⟨us, l₁, -, -, tour, yields⟩ := finds.found
    have same : l.generation j = s.pool.ledger.generation j := by
      cases yields with
      | vacant => exact tour.generation j
      | evicted => exact (Ledger.generation_vacate ..).trans (tour.generation j)
    exact ⟨congrArg (· + 1) same, generation⟩
  | hit | claimed | waits =>
    obtain rfl := Option.some.inj hr
    cases hi
  | astray | exhausted => cases hr

/-! ### Reads -/

/-- No stay has begun twice, none has been read twice, and only stays that have begun have been
read. A page in a frame is of a stay that has begun, and it has been read exactly if it is not being
loaded any more. -/
structure Fetched (h : History) (s : System) : Prop where
  once : h.installs.Nodup
  read : h.reads.Nodup
  installed : h.reads ⊆ h.installs
  past {x : Stay} (hx : x ∈ h.installs) : x.generation ≤ s.pool.ledger.generation x.frame
  present {i : FrameNo} {o : Occupant} (ho : s.pool.ledger.occupant? i = some o) :
    s.pool.ledger.stayOf i o ∈ h.installs ∧
      (s.pool.ledger.stayOf i o ∈ h.reads ↔ o.io ≠ .busy .load)

theorem Fetched.new (n : Nat) (c : Catalog) : Fetched [] (.new n c) where
  once := List.nodup_nil
  read := List.nodup_nil
  installed := List.nil_subset _
  past hx := nomatch hx
  present ho := by
    rw [show (System.new n c).pool.ledger = Ledger.new n from rfl, Ledger.occupant?_new] at ho
    cases ho

theorem stayOf_eq {l l' : Ledger} (hg : l'.generation i = l.generation i) (hf : o'.file = o.file)
    (hp : o'.page = o.page) : l'.stayOf i o' = l.stayOf i o := by
  unfold Ledger.generation at hg
  rw [Ledger.stayOf, Ledger.stayOf, hg, hf, hp]

theorem Alters.loading (h : s.Alters m i o o') : o'.io = .busy .load ↔ o.io = .busy .load := by
  cases h with
  | claimed r hio => simp [Occupant.claimed, hio]
  | _ => exact Iff.rfl

theorem seated_of_read (hs : s.Regular) {x : Stay} (hx : s.read? m = some x) :
    ∃ ok o, s.ended? m = some (⟨.load, x⟩, ok) ∧ s.pool.ledger.occupant? x.frame = some o ∧
      o.io = .busy .load ∧ x = s.pool.ledger.stayOf x.frame o := by
  rw [read?] at hx
  split at hx
  · next stay ok he =>
    obtain rfl := Option.some.inj hx
    obtain ⟨t, hx⟩ := transferOf_of_ended he
    obtain ⟨o, ho, hio, hst⟩ := hs.escorted.seated hx
    exact ⟨ok, o, he, ho, hio, hst⟩
  · cases hx

/-- `Fetched` is kept by every permitted move. -/
theorem Fetched.move {h : History} (f : s.Fetched h) (hs : s.Regular) (hp : s.Permits m) :
    (s.after m).Fetched ((s, m) :: h) := by
  have acts := acts_after hs.orderly hs.consistent.size_pos hp
  have unread {x : Stay} (hx : s.read? m = some x) : x ∈ h.installs ∧ x ∉ h.reads := by
    obtain ⟨-, o, -, ho, hio, hst⟩ := seated_of_read hs hx
    obtain ⟨began, read⟩ := f.present ho
    rw [← hst] at began read
    exact ⟨began, fun hr => read.1 hr hio⟩
  have fresh {x : Stay} (hx : s.installed? m = some x) : x ∉ h.installs := by
    intro hold
    have past := f.past hold
    have new := (generation_installed hs hx).1
    omega
  constructor
  case once => exact History.nodup_filterMap_cons f.once fun _ hx => fresh hx
  case read => exact History.nodup_filterMap_cons f.read fun _ hx => (unread hx).2
  case installed =>
    intro x hx
    refine History.mem_filterMap_cons.2 (.inr ?_)
    rcases History.mem_filterMap_cons.1 hx with hx | hx
    · exact (unread hx).1
    · exact f.installed hx
  case past =>
    intro x hx
    rcases History.mem_filterMap_cons.1 hx with hx | hx
    · exact Nat.le_of_eq (generation_installed hs hx).2.symm
    · exact Nat.le_trans (f.past hx) (acts.generation_le x.frame)
  case present =>
    intro i o' ho'
    cases he : s.ended? m with
    | none =>
      have reads : History.reads ((s, m) :: h) = h.reads := by
        simp [History.reads, read?, he]
      rw [reads]
      cases fate_after hs hp he ho' with
      | arrived ha hnew hg =>
        refine ⟨History.mem_filterMap_cons.2 (.inl ha), iff_of_false (fun hr => ?_) ?_⟩
        · exact fresh ha (f.installed hr)
        · rw [hnew]
          exact fun hio => hio rfl
      | @stayed o ho hg alters =>
        obtain ⟨hf, hpage⟩ := alters.file_page
        obtain ⟨began, read⟩ := f.present ho
        rw [stayOf_eq hg hf hpage, read, not_iff_not]
        exact ⟨History.mem_filterMap_cons.2 (.inr began), alters.loading.symm⟩
    | some e =>
      obtain ⟨x, ok⟩ := e
      obtain ⟨hg, o, ho, hcase⟩ := hs.of_ended he ho'
      obtain ⟨began, read⟩ := f.present ho
      rcases hcase with ⟨hne, rfl⟩ | ⟨hst, hio, hcase⟩
      · rw [stayOf_eq hg rfl rfl, ← read]
        refine ⟨History.mem_filterMap_cons.2 (.inr began), fun hr => ?_,
          fun hr => History.mem_filterMap_cons.2 (.inr hr)⟩
        refine (History.mem_filterMap_cons.1 hr).resolve_left fun hr => ?_
        obtain ⟨_, _, he', -⟩ := seated_of_read hs hr
        obtain ⟨rfl, -⟩ := Prod.mk.inj (Option.some.inj (he.symm.trans he'))
        exact hne rfl
      · -- If it was loaded then it has just been read, and if it was written back then it had been.
        have now : s.pool.ledger.stayOf i o ∈ History.reads ((s, m) :: h) := by
          obtain ⟨kind, stay⟩ := x
          obtain rfl : stay = s.pool.ledger.stayOf i o := hst
          refine History.mem_filterMap_cons.2 ?_
          cases kind with
          | load => exact .inl (by simp [read?, he])
          | writeBack => exact .inr (read.2 (by simp [hio]))
        rcases hcase with ⟨-, rfl⟩ | ⟨-, -, rfl⟩ <;> rw [stayOf_eq hg rfl rfl] <;>
          exact ⟨History.mem_filterMap_cons.2 (.inr began), iff_of_true now nofun⟩

/-! ### Writes -/

theorem handle_of_givenBack {x : Handle} (hx : s.givenBack? m = some x) :
    ∃ k, s.handles.find? k = some x := by
  cases m with
  | release k | drop k => exact ⟨k, hx⟩
  | cancel t =>
    rw [givenBack?] at hx
    split at hx
    · exact ⟨_, hx⟩
    · cases hx
  | _ => cases hx

theorem soiled?_of_givenBack {stay : Stay} (hx : s.givenBack? m = some ⟨stay, true⟩)
    (hr : (s.pool.ledger.unpinStay s.labels stay true).2 = .ok ()) :
    s.soiled? m = some (stay.file, stay.page) := by
  cases m with
  | unpin => cases hx
  | _ => simp only [soiled?, hx, hr]

/-- A page is owed one write more only if it is given back dirty. -/
theorem Alters.owed_le (h : s.Alters m i o o') (hs : s.Regular) (placed : s.Placed)
    (hd : s.files.Distinct) (hp : s.Permits m) (ho : s.pool.ledger.occupant? i = some o) :
    o'.owed ≤ o.owed + if s.soiled? m = some (o.file, o.page) then 1 else 0 := by
  have dirtier : (o.returned true).owed ≤ o.owed + 1 := by
    simp only [Occupant.owed, Occupant.returned, Bool.or_true, Bool.toNat_true]
    omega
  cases h with
  | used | pinned => exact Nat.le_add_right ..
  | claimed r hio hdirty =>
    have same : ({ o.claimed with referenced := r } : Occupant).owed = o.owed := by
      simp [Occupant.owed, Occupant.claimed, hio, hdirty]
    rw [same]
    exact Nat.le_add_right ..
  | @givenBack x hx hi hat hpins =>
    obtain ⟨stay, dirty⟩ := x
    cases dirty with
    | false =>
      have same : (o.returned false).owed = o.owed := by simp [Occupant.owed, Occupant.returned]
      rw [same]
      exact Nat.le_add_right ..
    | true =>
      obtain ⟨k, hk⟩ := handle_of_givenBack hx
      obtain ⟨hf, hpage⟩ := (placed.lent hk).2 o hat
      have soiled := soiled?_of_givenBack hx (by
        simp only [Ledger.unpinStay, hat, Occupant.unpin?_of_pinned hpins])
      rw [if_pos (by rw [soiled, hf, hpage])]
      exact dirtier
  | @unpinned file page dirty hm hk hpins =>
    subst hm
    cases dirty with
    | false =>
      have same : (o.returned false).owed = o.owed := by simp [Occupant.owed, Occupant.returned]
      rw [same]
      exact Nat.le_add_right ..
    | true =>
      obtain ⟨q, hq, hkey⟩ := hs.consistent.occupant?_of_find? hk
      obtain rfl := Option.some.inj (ho.symm.trans hq)
      obtain ⟨rfl, rfl⟩ := hd.key_inj (placed.opened ho) hp hkey
      have soiled : s.soiled? (.unpin o.file o.page true) = some (o.file, o.page) := by
        simp only [soiled?, Ledger.unpinPage, hk, ho, Occupant.unpin?_of_pinned hpins]
      rw [if_pos soiled]
      exact dirtier

/-- No page has been written with success more often than it was given back dirty, and no page in a
frame would be if all writes still owed for it were made. -/
structure Paid (h : History) (s : System) : Prop where
  saved (file : FileNo) (page : PageNo) : h.saves file page ≤ h.soilings file page
  owed {i : FrameNo} {o : Occupant} (ho : s.pool.ledger.occupant? i = some o) :
    h.saves o.file o.page + o.owed ≤ h.soilings o.file o.page

theorem Paid.new (n : Nat) (c : Catalog) : Paid [] (.new n c) where
  saved _ _ := Nat.le_refl 0
  owed ho := by
    rw [show (System.new n c).pool.ledger = Ledger.new n from rfl, Ledger.occupant?_new] at ho
    cases ho

theorem seated_of_saved (hs : s.Regular) {file : FileNo} {page : PageNo}
    (hx : s.saved? m = some (file, page)) :
    ∃ stay o, s.ended? m = some (⟨.writeBack, stay⟩, true) ∧
      s.pool.ledger.occupant? stay.frame = some o ∧ o.io = .busy .writeBack ∧ o.file = file ∧
      o.page = page := by
  rw [saved?] at hx
  split at hx
  · next stay he =>
    obtain ⟨rfl, rfl⟩ := Prod.mk.inj (Option.some.inj hx)
    obtain ⟨t, hx⟩ := transferOf_of_ended he
    obtain ⟨o, ho, hio, hst⟩ := hs.escorted.seated hx
    exact ⟨stay, o, he, ho, hio, (congrArg Stay.file hst).symm, (congrArg Stay.page hst).symm⟩
  · cases hx

/-- `Paid` is kept by every permitted move. -/
theorem Paid.move {h : History} (f : s.Paid h) (hs : s.Regular) (placed : s.Placed)
    (hd : s.files.Distinct) (hp : s.Permits m) : (s.after m).Paid ((s, m) :: h) := by
  constructor
  case saved =>
    intro file page
    rw [History.saves_cons]
    refine Nat.le_trans ?_ History.soilings_le_cons
    split
    · next hx =>
      obtain ⟨_, o, -, ho, hio, rfl, rfl⟩ := seated_of_saved hs hx
      have owed := f.owed ho
      simp only [Occupant.owed, hio, if_true] at owed
      omega
    · exact f.saved file page
  case owed =>
    intro i o' ho'
    cases he : s.ended? m with
    | none =>
      have quiet : s.saved? m = none := by simp [saved?, he]
      rw [History.saves_cons, quiet, if_neg nofun]
      cases fate_after hs hp he ho' with
      | arrived ha hnew =>
        have none : o'.owed = 0 := by
          rw [hnew]
          rfl
        rw [none]
        exact Nat.le_trans (f.saved ..) History.soilings_le_cons
      | @stayed o ho hg alters =>
        obtain ⟨hf, hpage⟩ := alters.file_page
        have before := f.owed ho
        have one := alters.owed_le hs placed hd hp ho
        rw [hf, hpage, History.soilings_cons]
        omega
    | some e =>
      obtain ⟨x, ok⟩ := e
      obtain ⟨-, o, ho, hcase⟩ := hs.of_ended he ho'
      have before := f.owed ho
      refine Nat.le_trans ?_ History.soilings_le_cons
      rw [History.saves_cons]
      rcases hcase with ⟨hne, rfl⟩ | ⟨-, hio, hcase⟩
      · rw [if_neg]
        · exact before
        · intro hx
          obtain ⟨stay, q, he', hq, -, hf, hpage⟩ := seated_of_saved hs hx
          obtain ⟨rfl, -⟩ := Prod.mk.inj (Option.some.inj (he.symm.trans he'))
          exact hne (hs.consistent.frame_inj hq ho (by rw [Occupant.key, hf, hpage, Occupant.key]))
      · rcases hcase with ⟨rfl, rfl⟩ | ⟨rfl, hk, rfl⟩
        · -- What has been written is no longer being written back.
          have quiet : ({ o with io := .idle } : Occupant).owed = o.dirty.toNat := by
            simp [Occupant.owed]
          rw [quiet]
          dsimp only
          obtain ⟨kind, stay⟩ := x
          cases kind with
          | load =>
            rw [if_neg (by simp [saved?, he])]
            exact Nat.le_trans (Nat.add_le_add_left (Nat.le_add_right ..) _) before
          | writeBack =>
            simp only [Occupant.owed, hio, if_true] at before
            split <;> omega
        · have again : ({ o with io := .idle, dirty := true } : Occupant).owed = 1 := by
            simp [Occupant.owed]
          rw [if_neg (by simp [saved?, he]), again]
          dsimp only
          rw [hk] at hio
          simp only [Occupant.owed, hio, if_true] at before
          omega

/-! ### Calls -/

theorem Regular.of_called (hs : s.Regular) {x : Transfer} (hc : s.called? m = some x) :
    ∃ o, s.pool.ledger.occupant? x.stay.frame = some o ∧ o.io = .busy x.kind ∧
      x.stay = s.pool.ledger.stayOf x.stay.frame o := by
  cases m with
  | resume | cancel | fill | strike => exact hs.escorted.seated hc
  | _ => cases hc

end System

namespace ReachesShared

variable {allowed : Move → Prop} {n : Nat} (hn : 0 < n) {c : Catalog} {h : History} {s : System}
  (run : ReachesShared allowed (.new n c) h s)
include hn run

theorem fetched : s.Fetched h := by
  induction run with
  | start => exact .new n c
  | move run possible _ ih => exact ih.move (run.regular hn) possible
  | others _ _ ih => exact ⟨ih.once, ih.read, ih.installed, ih.past, ih.present⟩

theorem paid (hd : c.Distinct) : s.Paid h := by
  induction run with
  | start => exact .new n c
  | move run possible _ ih =>
    exact ih.move (run.regular hn) (run.placed hn hd) (run.distinct hn hd) possible
  | others _ _ ih => exact ⟨ih.saved, ih.owed⟩

end ReachesShared

/-- A page is read at most once while it has its frame, and not at all for those who ask for it
meanwhile: they get it as it is, and the files stay as they are. It is written only while it is
being written back, and has then been given back dirty. As often as it has been written with
success, and once more if it is dirty, and once more if it is being written back, so often at least
has somebody given it back dirty. Every move makes one call of a file at most, and a move that makes
none for a transfer leaves the files alone, unless it allocates a page or deletes one. -/
theorem calls_economical {n : Nat} (hn : 0 < n) {c : Catalog} (hd : c.Distinct) {h : History}
    {s : System} (run : ReachesShared (fun _ => True) (.new n c) h s) :
    s.Fetched h ∧ s.Paid h ∧
      (∀ {m : Move} {i : FrameNo} {o : Occupant} {w : Option Stay}, s.Looks m o.file o.page w →
        s.pool.ledger.occupant? i = some o →
          s.answer? m = some (.hit (s.pool.ledger.stayOf i o) (o.pins + 1)) ∧
            s.installed? m = none ∧ s.called? m = none ∧ (s.after m).files = s.files) ∧
      ∀ {m : Move}, s.Permits m →
        (∀ stay, s.called? m = some ⟨.writeBack, stay⟩ →
          0 < h.soilings stay.file stay.page ∧ ∃ o, s.pool.ledger.occupant? stay.frame = some o ∧
            stay = s.pool.ledger.stayOf stay.frame o ∧ o.io = .busy .writeBack) ∧
        s.UsesFiles m (s.after m).files ∧
        (s.called? m = none → (s.after m).files = s.files ∨ ∃ t fault, m = .resume t fault ∧
          ((∃ file k, s.tasks.find? t = some (.allocate file k) ∧
              (s.after m).files = (s.files.allocate fault file).1) ∨
            ∃ file page, s.tasks.find? t = some (.delete file page) ∧
              (s.after m).files = (s.files.delete fault file page).1)) := by
  have hs := run.regular hn
  have paid := run.paid hn hd
  refine ⟨run.fetched hn, paid, fun {m i o w} looks ho => ?_, fun {m} hp => ?_⟩
  · have answer := looks.hit hs ho rfl rfl
    refine ⟨answer, ?_, ?_, looks.files hs.consistent.size_pos⟩
    · rw [System.installed?, answer]
      rfl
    · obtain ⟨t, fault, k, look, rfl, ht⟩ := looks
      exact System.transferOf_eq ht
  · have uses := System.usesFiles_after hs.consistent.size_pos hp
    refine ⟨fun stay hc => ?_, uses, uses.of_uncalled⟩
    obtain ⟨o, ho, hio, hst⟩ := hs.of_called hc
    have owed := paid.owed ho
    simp only [Occupant.owed, hio, if_true] at owed
    have hf : stay.file = o.file := congrArg Stay.file hst
    have hpage : stay.page = o.page := congrArg Stay.page hst
    refine ⟨?_, o, ho, hst, hio⟩
    rw [hf, hpage]
    omega

/-- A page that has been given back dirty once is written once. -/
theorem calls_economical_small : ∃ h s, Reaches (fun _ => True) .small h s ∧
    h.reads = [⟨0, 0, 0, 1⟩] ∧ h.soilings 0 0 = 1 ∧ h.saves 0 0 = 1 ∧ s.Fetched h ∧ s.Paid h := by
  have run : Reaches (fun _ => True) .small (System.small.play smallReplaced).1
      (System.small.play smallReplaced).2 := by
    refine .play ⟨⟨rfl, Nat.zero_lt_one, rfl, nofun⟩, rfl, rfl, rfl, ⟨⟨_, rfl⟩, nofun⟩,
      ⟨⟨_, rfl⟩, nofun⟩, ⟨rfl, Nat.zero_lt_one, rfl, nofun⟩, rfl, rfl, trivial⟩ fun _ _ => trivial
  obtain ⟨fetched, paid, -⟩ := calls_economical Nat.zero_lt_one distinct_small run.shared
  exact ⟨_, _, run, by decide, by decide, by decide, fetched, paid⟩

end SecondChance
