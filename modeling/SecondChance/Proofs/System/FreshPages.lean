import SecondChance.Proofs.System.FailedFetches
import SecondChance.Proofs.System.ErrandAgreement
import SecondChance.Proofs.System.SequentialRuns

/-!
New pages.

A number that a file hands out is free, so nobody has a page under it: where one operation comes
after the other, every page in a frame is one that its file has. What the file has under the number
then is a page of zeros. The page is not found in any frame but loaded into one, by the one who
asked for it and by nobody else, so it comes to him as the file has it. It does not matter what the
pool or the file once had under the same number.
-/

namespace SecondChance

namespace System

variable {s s₀ : System} {m : Move} {t : TaskId} {fault : Option Fault} {f : FileNo} {p : PageNo}
  {k : HandleNo}

/-- How far a task has come that is fetching a page. As long as it looks for a frame or writes back
what is in one, the page is in none. Then it has a frame that is the task's alone. -/
inductive Bringing (s : System) (t : TaskId) (f : FileNo) (p : PageNo) (k : HandleNo) : Prop
  | seeks {w : Option Stay} {look : Option Ticket}
      (ht : s.tasks.find? t = some (.fetch f p k w (.look look))) (lacks : s.Lacks f p)
  | clears {w : Option Stay} {stay : Stay}
      (ht : s.tasks.find? t = some (.fetch f p k w (.move ⟨.writeBack, stay⟩)))
      (lacks : s.Lacks f p)
  | loads {w : Option Stay} {stay : Stay}
      (ht : s.tasks.find? t = some (.fetch f p k w (.move ⟨.load, stay⟩)))
      (ho : s.pool.ledger.occupant? stay.frame = some (.arriving f p))

theorem Bringing.fetches (h : s.Bringing t f p k) :
    ∃ w stage, s.tasks.find? t = some (.fetch f p k w stage) := by
  cases h with
  | seeks ht | clears ht | loads ht => exact ⟨_, _, ht⟩

/-- Whoever brings in a page leaves its content alone, unless a read delivers only a part of it. -/
theorem Bringing.untouched (h : s.Bringing t f p k) (proceeds : s.Proceeds t m)
    (whole : m.ReadsWhole) : s.Touches f p m = false := by
  cases proceeds with
  | resumes fault =>
    have whole : Fault.cuts fault = false := whole
    simp only [Touches, marks]
    cases h with
    | seeks ht | clears ht =>
      rw [ht]
      rfl
    | loads ht =>
      simp only [ht, Option.elim_some, marksOf, whole]
      split <;> rfl
  | givenUp =>
    simp only [Touches, marks]
    split <;> rfl
  | fills | strikes => rfl

/-- The page has been lent out for the handle. It is clean, and nobody else has it. -/
structure Lent (s : System) (k : HandleNo) (f : FileNo) (p : PageNo) (i : FrameNo) : Prop where
  handle : s.handles.find? k = some ⟨⟨f, p, i, s.pool.ledger.generation i⟩, false⟩
  occupant : s.pool.ledger.occupant? i = some ⟨f, p, 1, true, false, .idle⟩

theorem Lent.stillLoading {i : FrameNo} (h : s.Lent k f p i) :
    s.pool.ledger.stillLoading ⟨f, p, i, s.pool.ledger.generation i⟩ = .ok false := by
  have hat : (s.pool.ledger.frame i).occupantAt (s.pool.ledger.generation i) =
      some ⟨f, p, 1, true, false, .idle⟩ := Ledger.occupantAt_frame.2 ⟨rfl, h.occupant⟩
  simp [Ledger.stillLoading, hat]

/-- What a step comes to of the task that brings in a page. -/
inductive Brings (s : System) (t : TaskId) (f : FileNo) (p : PageNo) (k : HandleNo) :
    Option Result → Prop
  | on (h : s.Bringing t f p k) : Brings s t f p k none
  | fails (e : PoolError) (ht : s.tasks.find? t = none) : Brings s t f p k (some (.refused e))
  | lends {i : FrameNo} (ht : s.tasks.find? t = none) (lent : s.Lent k f p i) :
      Brings s t f p k (some (.lent p i))

section Resume

variable (hs : s.Sturdy) {w : Option Stay} {stay : Stay}
include hs

theorem brings_of_look (hd : s.files.Distinct) (hp : s.Permits (.resume t fault))
    {look : Option Ticket} (ht : s.tasks.find? t = some (.fetch f p k w (.look look)))
    (lacks : s.Lacks f p) :
    (s.after (.resume t fault)).Brings t f p k (s.resume t fault).2.2 := by
  have hf : s.hasFile f := hs.regular.orderly.target ht rfl
  have absent := hs.regular.absent_of_lacks hs.placed hd hf lacks
  have find := find?_after_resume ht fault
  have ledger := ledger_resume ht fault
  have still := lacks_after (p := p) hs.regular hp lacks
  rw [installed?, answer?, ht] at still
  rw [result_resume ht]
  obtain ⟨l, r, ha⟩ : ∃ l r, s.pool.ledger.acquire s.labels f p w = (l, r) := ⟨_, _, rfl⟩
  simp only [advance, lookForFetch, ha] at find ledger still ⊢
  cases Ledger.acquire_cases hs.size_pos ha with
  | hit hk | astray hk => cases hk.symm.trans absent
  | load d hk hm hi ho =>
    refine .on (.loads find ?_)
    rw [ledger]
    exact (Ledger.occupant?_install hi ..).trans (if_pos rfl)
  | writeBack => exact .on (.clears find (still fun _ hi => by cases hi))
  | wait => exact .on (.seeks find (still fun _ hi => by cases hi))
  | exhausted => exact .fails _ find

theorem brings_of_writeBack (hp : s.Permits (.resume t fault))
    (ht : s.tasks.find? t = some (.fetch f p k w (.move ⟨.writeBack, stay⟩)))
    (lacks : s.Lacks f p) :
    (s.after (.resume t fault)).Brings t f p k (s.resume t fault).2.2 := by
  have find := find?_after_resume ht fault
  have still := lacks_after (p := p) hs.regular hp lacks
  rw [installed?, answer?, ht] at still
  rw [result_resume ht]
  obtain ⟨s', events, r, hr⟩ : ∃ s' events r,
    s.finishTransfer t ⟨.writeBack, stay⟩ fault = (s', events, r) := ⟨_, _, _, rfl⟩
  simp only [advance, moveForFetch, hr] at find ⊢
  cases r with
  | ok => exact .on (.seeks find (still fun _ hi => by cases hi))
  | error => exact .fails _ find

theorem brings_of_load (ht : s.tasks.find? t = some (.fetch f p k w (.move ⟨.load, stay⟩)))
    (ho : s.pool.ledger.occupant? stay.frame = some (.arriving f p)) :
    (s.after (.resume t fault)).Brings t f p k (s.resume t fault).2.2 := by
  have hx : s.transferOf t = some ⟨.load, stay⟩ := transferOf_eq ht
  have find := find?_after_resume ht fault
  have handles := handles_after_resume ht fault
  have ledger : (s.after (.resume t fault)).pool.ledger = _ := ledger_resume_move hx
  rw [← s.isOk_finishTransfer t] at ledger
  obtain ⟨o, hat, -, ho', hio⟩ := hs.regular.seat hx
  obtain rfl := Option.some.inj (ho.symm.trans ho')
  have place : stay = ⟨f, p, stay.frame, s.pool.ledger.generation stay.frame⟩ := by
    obtain ⟨q, hq, -, place⟩ := hs.regular.escorted.seated hx
    obtain rfl := Option.some.inj (ho.symm.trans hq)
    exact place
  rw [result_resume ht]
  obtain ⟨s', events, r, hr⟩ : ∃ s' events r,
    s.finishTransfer t ⟨.load, stay⟩ fault = (s', events, r) := ⟨_, _, _, rfl⟩
  simp only [advance, moveForFetch, hr] at find handles ledger ⊢
  cases r with
  | error => exact .fails _ find
  | ok =>
    rw [Except.isOk, Except.toBool, Ledger.settle_succeeded hat hio] at ledger
    have lent : (s.after (.resume t fault)).Lent k f p stay.frame := by
      constructor
      · rw [handles, ledger, Ledger.generation_setOccupant, ← place]
        exact Table.find?_insert_self ..
      · rw [ledger, Ledger.occupant?_setOccupant (Ledger.lt_size_of_occupant? ho), if_pos rfl]
        rfl
    have page : stay.page = p := congrArg Stay.page place
    subst page
    exact .lends find lent

end Resume

section Step

variable (h : s.Bringing t f p k) (hs : s.Sturdy) (hd : s.files.Distinct)
include h hs hd

theorem Bringing.resume (hp : s.Permits (.resume t fault)) :
    (s.after (.resume t fault)).Brings t f p k (s.resume t fault).2.2 := by
  cases h with
  | seeks ht lacks => exact brings_of_look hs hd hp ht lacks
  | clears ht lacks => exact brings_of_writeBack hs hp ht lacks
  | loads ht ho => exact brings_of_load hs ht ho

theorem Bringing.move (hp : s.Permits m) (proceeds : s.Proceeds t m) :
    (s.after m).Bringing t f p k ∨ (s.after m).tasks.find? t = none := by
  cases proceeds with
  | resumes fault =>
    have brings := h.resume hs hd hp
    generalize (s.resume t fault).2.2 = r at brings
    cases brings with
    | on next => exact .inl next
    | fails _ ht | lends ht => exact .inr ht
  | givenUp =>
    obtain ⟨w, stage, ht⟩ := h.fetches
    exact .inr (find?_after_cancel ht)
  | fills content hx =>
    cases h with
    | seeks ht | clears ht => cases (transferOf_eq ht).symm.trans hx
    | loads ht ho =>
      simp only [after, fill, hx]
      exact .inl (.loads ht ho)
  | strikes hx =>
    cases h with
    | seeks ht | loads ht => cases (transferOf_eq ht).symm.trans hx
    | clears ht lacks =>
      simp only [after, strike, hx]
      exact .inl (.clears ht lacks)

/-- Whoever gets a page that he has brought in gets what it contains. -/
theorem Bringing.delivers (ha : s.files.Apart) (hp : s.Permits (.resume t fault))
    (whole : Fault.cuts fault = false) {q : Page} (intact : s.Intact f p (some q)) {p' : PageNo}
    {i : FrameNo} (done : (s.resume t fault).2.2 = some (.lent p' i)) :
    p' = p ∧ (s.after (.resume t fault)).Lent k f p i ∧
      (s.after (.resume t fault)).pool.buffer i = q := by
  have brings := h.resume hs hd hp
  rw [done] at brings
  cases brings with
  | lends _ lent =>
    have shown : (s.after (.resume t fault)).pool.ledger.shown i = some (f, p) :=
      Ledger.shown_eq_some.2 ⟨_, lent.occupant, nofun, rfl, rfl⟩
    have content := buffer_after hs ha hp (h.untouched (.resumes fault) whole) hd
      (hasFile_of_isLive intact.live) shown
    exact ⟨rfl, lent, Option.some.inj (content.symm.trans intact.content)⟩

end Step

/-! ### Asking for a new page -/

/-- How far a task has come that asked for a new page in `s₀`. -/
inductive Creating (s₀ : System) (t : TaskId) (f : FileNo) (k : HandleNo) (s : System) : Prop
  | asks (alone : s.Alone t) (ht : s.tasks.find? t = some (.allocate f k))
      (files : s.files = s₀.files) (ledger : s.pool.ledger = s₀.pool.ledger)
  | brings {p : PageNo} (free : s₀.files.isLive f p = false) (last : p ≤ s₀.files.pageCount f)
      (least : ∀ n < p, s₀.files.isLive f n = true) (lacks : s₀.Lacks f p) (alone : s.Alone t)
      (bringing : s.Bringing t f p k) (intact : s.Intact f p (some .zero))
  | ended (ht : s.tasks.find? t = none)

theorem Quiescent.lacks (still : s₀.Quiescent) (kept : s₀.Kept f p)
    (free : s₀.files.isLive f p = false) : s₀.Lacks f p := by
  rintro i o ho ⟨hof, hop⟩
  have idle : o.io = .idle := still.alone.io_eq_idle (transferOf_eq_none (still.idle 0)) ho
  have live := kept.live ho (by rw [idle]; nofun) hof hop
  exact Bool.false_ne_true (free.symm.trans live)

theorem creating_of_allocate (still : s₀.Quiescent) (tidy : s₀.files.Tidy)
    (kept : ∀ p, s₀.Kept f p) (alone : s.Alone t)
    (ht : s.tasks.find? t = some (.allocate f k)) (files : s.files = s₀.files)
    (ledger : s.pool.ledger = s₀.pool.ledger) (hs' : (s.after (.resume t fault)).Sturdy)
    (hd' : (s.after (.resume t fault)).files.Distinct) :
    s₀.Creating t f k (s.after (.resume t fault)) := by
  have find := find?_after_resume ht fault
  have ledger' := ledger_resume ht fault
  have alone' := alone.resume ht fault
  have made : (s.after (.resume t fault)).files = (s.files.allocate fault f).1 := by
    rw [after, resume_fst ht, files_turnTo]
    simp only [advance]
    split <;> next hr => rw [hr]
  obtain ⟨d, r, hr⟩ : ∃ d r, s.files.allocate fault f = (d, r) := ⟨_, _, rfl⟩
  simp only [advance, hr] at find ledger'
  cases r with
  | error => exact .ended find
  | ok p =>
    obtain ⟨free, last, least, zeros, live⟩ := tidy.allocated (congrArg Prod.snd (files ▸ hr))
    rw [← files, ← made] at zeros live
    have lacks := still.lacks (kept p) free
    have lacks' : (s.after (.resume t fault)).Lacks f p := by
      rwa [Lacks, ledger', ledger]
    have absent := hs'.regular.absent_of_lacks hs'.placed hd' (hasFile_of_isLive live) lacks'
    refine .brings free last least lacks alone' (.seeks find lacks') ?_
    rw [← zeros]
    exact intact_of_absent live absent

section Move

variable (still : s₀.Quiescent) (tidy : s₀.files.Tidy) (kept : ∀ p, s₀.Kept f p) (hs : s.Sturdy)
  (hd : s.files.Distinct) (ha : s.files.Apart) (hp : s.Permits m)
include still tidy kept hs hd ha hp

theorem Creating.move (h : s₀.Creating t f k s) (hs' : (s.after m).Sturdy)
    (hd' : (s.after m).files.Distinct) (inTurn : s.InTurn m = true) (whole : m.ReadsWhole)
    (hb : ¬ m.Begins t) : s₀.Creating t f k (s.after m) := by
  have unbegun (op : Operation) : m ≠ .begin t op := by
    rintro rfl
    exact hb rfl
  cases h with
  | asks alone ht files ledger =>
    have unmoved : s.transferOf t = none := transferOf_eq ht
    cases alone.proceeds ht rfl hp inTurn with
    | resumes fault =>
      exact creating_of_allocate still tidy kept alone ht files ledger hs' hd'
    | givenUp => exact .ended (find?_after_cancel ht)
    | fills _ hx | strikes hx => cases unmoved.symm.trans hx
  | brings free last least lacks alone bringing intact =>
    obtain ⟨w, stage, ht⟩ := bringing.fetches
    have proceeds := alone.proceeds ht rfl hp inTurn
    have alone' : (s.after m).Alone t := alone.move hp fun u op hm => by
      subst hm
      cases proceeds
    have intact' := intact.move hs hd ha hp hs'.placed (bringing.untouched proceeds whole)
    rcases bringing.move hs hd hp proceeds with bringing' | ended
    · exact .brings free last least lacks alone' bringing' intact'
    · exact .ended ended
  | ended ht =>
    exact .ended (find?_after_of_none hs.size_pos hp unbegun ht)

end Move

end System

section Create

variable {n : Nat} (hn : 0 < n) {c : Catalog} (hd : c.Distinct) (ha : c.Apart)
  (undeleted : c.Undeleted) {h₀ h : History} {s₀ s : System}
  (run : Reaches (fun _ => True) (.new n c) h₀ s₀)
  (before : ∀ x ∈ h₀, x.1.InTurn x.2 = true) {t : TaskId} {f : FileNo} {k : HandleNo}
include hn hd ha undeleted run before

/-- Where one operation comes after the other, an allocation that began in `s₀` is at one of the
places that `Creating` lists in every later state. -/
theorem Reaches.creating (begins : s₀.Permits (.begin t (.allocate f k)))
    (idle : s₀.InTurn (.begin t (.allocate f k)) = true)
    (since : Reaches (fun m => m.ReadsWhole ∧ ¬ m.Begins t) (s₀.after (.begin t (.allocate f k)))
      h s) (meanwhile : ∀ x ∈ h, x.1.InTurn x.2 = true) : s₀.Creating t f k s := by
  have still := (run.single hn before).quiescent idle
  have tidy := run.tidy hn (Catalog.tidy_of_undeleted ha undeleted)
  induction since with
  | start =>
    obtain ⟨-, alone, ht⟩ := still.begin begins.2 t
    exact .asks alone ht rfl rfl
  | @move h s m since possible kind ih =>
    have total := (run.move begins trivial).append (since.mono fun _ _ => trivial)
    have next := total.move possible trivial
    have earlier := ih fun x hx => meanwhile x (List.mem_cons_of_mem _ hx)
    exact earlier.move still tidy (run.kept hn before f) (total.shared.sturdy hn hd)
      (total.shared.distinct hn hd) (total.apart hn ha) possible (next.shared.sturdy hn hd)
      (next.shared.distinct hn hd) (meanwhile (s, m) List.mem_cons_self) kind.1 kind.2

end Create

/-- A page that has been allocated is new. When the operation began its number was not that of a
page of the file, and no frame had a page under it; it was the lowest number that was free, or the
first one behind all others. The page is clean, nobody else has it, and it contains zeros, which is
what is read under the handle. One operation comes after the other, and none of the files on disk
has lost a page before the pool is there. Whatever else has been done then, has failed or been given
up does not matter, nor does what the pool and the file once had under that number. -/
theorem allocated_pages_fresh {n : Nat} (hn : 0 < n) {c : Catalog} (hd : c.Distinct) (ha : c.Apart)
    (undeleted : c.Undeleted) {h₀ : History} {s₀ : System}
    (run : Reaches (fun _ => True) (.new n c) h₀ s₀) (before : ∀ x ∈ h₀, x.1.InTurn x.2 = true)
    {t : TaskId} {f : FileNo} {k : HandleNo} (begins : s₀.Permits (.begin t (.allocate f k)))
    (idle : s₀.InTurn (.begin t (.allocate f k)) = true) {h : History} {s : System}
    (since : Reaches (fun m => m.ReadsWhole ∧ ¬ m.Begins t) (s₀.after (.begin t (.allocate f k)))
      h s) (meanwhile : ∀ x ∈ h, x.1.InTurn x.2 = true) {fault : Option Fault}
    (whole : Fault.cuts fault = false) (possible : s.Permits (.resume t fault)) {p : PageNo}
    {i : FrameNo} (done : (s.resume t fault).2.2 = some (.lent p i)) :
    s₀.files.isLive f p = false ∧ s₀.Lacks f p ∧
      s₀.pool.ledger.table.find? (c.labels.key f p) = none ∧
      p ≤ s₀.files.pageCount f ∧ (∀ m < p, s₀.files.isLive f m = true) ∧
      (s.after (.resume t fault)).Lent k f p i ∧ (s.after (.resume t fault)).ReadsAs k .zero := by
  have total : Reaches (fun _ => True) (.new n c) _ s :=
    (run.move begins trivial).append (since.mono fun _ _ => trivial)
  cases run.creating hn hd ha undeleted before begins idle since meanwhile with
  | asks alone ht =>
    rw [System.result_resume ht] at done
    simp only [System.advance] at done
    split at done <;> cases done
  | ended ht => simp [System.resume, ht] at done
  | @brings p' free last least lacks alone bringing intact =>
    obtain ⟨rfl, lent, zeros⟩ := bringing.delivers (total.shared.sturdy hn hd)
      (total.shared.distinct hn hd) (total.apart hn ha) possible whole intact done
    obtain ⟨w, stage, ht⟩ := bringing.fetches
    have still := (alone.resume ht fault).quiescent (System.find?_of_result done)
    have opened : s₀.hasFile f := begins.2.1
    have absent := (run.shared.regular hn).absent_of_lacks (run.shared.placed hn hd)
      (run.shared.distinct hn hd) opened lacks
    rw [System.labels, Catalog.labels_of_registry (run.shared.registry hn)] at absent
    refine ⟨free, lacks, absent, last, least, lent, ?_⟩
    rw [← zeros]
    exact still.readsAs lent.handle lent.stillLoading

/-- A page is changed, given back and disposed of. -/
def smallDisposed : History × System := smallReturned.2.play
  [.begin 3 (.dispose 0 0), .resume 3 none, .resume 3 none]

/-- Its number is handed out again. -/
def smallRenewed : History × System := (smallDisposed.2.after (.begin 4 (.allocate 0 1))).play
  [.resume 4 none, .resume 4 none]

theorem allocated_pages_fresh_small : ∃ h₀ s₀ h s, Reaches (fun _ => True) .small h₀ s₀ ∧
    s₀.Permits (.begin 4 (.allocate 0 1)) ∧
    Reaches (fun m => m.ReadsWhole ∧ ¬ m.Begins 4) (s₀.after (.begin 4 (.allocate 0 1))) h s ∧
    (s.resume 4 none).2.2 = some (.lent 0 0) ∧ (s.after (.resume 4 none)).Lent 1 0 0 0 ∧
    (s.after (.resume 4 none)).ReadsAs 1 .zero := by
  have disposed : Reaches (fun _ => True) smallReturned.2 smallDisposed.1 smallDisposed.2 :=
    .play ⟨⟨rfl, Nat.zero_lt_one⟩, rfl, rfl, trivial⟩ fun _ _ => trivial
  have run := (reaches_smallReturned.mono fun _ _ => trivial).append disposed
  have begins : smallDisposed.2.Permits (.begin 4 (.allocate 0 1)) :=
    ⟨rfl, Nat.zero_lt_one, rfl, nofun⟩
  have since : Reaches (fun m => m.ReadsWhole ∧ ¬ m.Begins 4)
      (smallDisposed.2.after (.begin 4 (.allocate 0 1))) smallRenewed.1 smallRenewed.2 :=
    .play ⟨rfl, rfl, trivial⟩ (by simp [Move.ReadsWhole, Move.Begins, Fault.cuts])
  have ready : smallRenewed.2.Permits (.resume 4 none) := rfl
  have undeleted := Catalog.undeleted_empty.openMemory "small" none
  obtain ⟨-, -, -, -, -, lent, zeros⟩ := allocated_pages_fresh Nat.zero_lt_one distinct_small
    apart_small undeleted run (by decide) begins rfl since (by decide) rfl ready rfl
  exact ⟨_, _, _, _, run, begins, since, rfl, lent, zeros⟩

end SecondChance
