import SecondChance.Proofs.System.FailedFetches
import SecondChance.Proofs.System.UntouchedPages
import SecondChance.Proofs.System.Cancellation

/-!
Disposing of a page without success.

A page that somebody has is not disposed of, and whoever waits for a page to be written back has
done nothing yet. So if a disposal is refused or given up before it has taken the page out of the
pool, all is as it was. But the page is taken out without being written, before its file is asked to
delete it. If the file does not do so, the page is there again with what its file has: changes that
had been given back but not been written are gone, and they are all that is lost.
-/

namespace SecondChance

namespace System

variable {s s' : System} {m : Move} {t : TaskId} {f : FileNo} {p : PageNo} {q : Option Page}
  {fault : Option Fault} {key : PageKey} {look : Option Ticket}

/-- The move takes the page out of the pool for task `t`, which is going to delete it. -/
def TakesOut (s : System) (t : TaskId) (f : FileNo) (p : PageNo) (m : Move) : Bool :=
  ((s.after m).tasks.find? t).any (·.deletes f p) && !(s.tasks.find? t).any (·.deletes f p)

/-- The move ends a disposal without success. It is refused, by a file only if the file has done
nothing, or it is given up. -/
inductive Fails (s : System) (t : TaskId) (f : FileNo) (p : PageNo) : Move → Prop
  | refused {fault : Option Fault} {e : PoolError}
      (hr : (s.resume t fault).2.2 = some (.refused e))
      (early : s.tasks.find? t = some (.delete f p) → ∀ text, fault ≠ some (.lateIo text)) :
      Fails s t f p (.resume t fault)
  | givenUp : Fails s t f p (.cancel t)

def IsDirty (s : System) (f : FileNo) (p : PageNo) : Prop :=
  ∃ i o, s.pool.ledger.occupant? i = some o ∧ o.file = f ∧ o.page = p ∧ o.dirty = true

/-- From now on, until somebody touches the page, its file has it, it contains `q`, and that is to
be seen in every frame that has it. -/
def Yields (s : System) (f : FileNo) (p : PageNo) (q : Option Page) : Prop :=
  ∀ h s', Reaches (fun _ => True) s h s' → (∀ x ∈ h, x.1.Touches f p x.2 = false) →
    s'.files.isLive f p = true ∧ s'.content f p = q ∧
      ∀ i, s'.pool.ledger.shown i = some (f, p) → q = some (s'.pool.buffer i)

/-! ### The steps of a disposal -/

/-- What a step comes to that is meant to take a page out of the pool, with what it leaves
behind. -/
inductive Expelling (s : System) (t : TaskId) (f : FileNo) (p : PageNo) :
    System → Option Result → Prop
  | pinned {i : FrameNo} {o : Occupant} (ho : s.pool.ledger.occupant? i = some o) (hf : o.file = f)
      (hp : o.page = p) (pins : o.pins ≠ 0) :
      Expelling s t f p (s.endTask t) (some (.refused (.pinned (s.name f) p i)))
  | waits {i : FrameNo} {o : Occupant} (ho : s.pool.ledger.occupant? i = some o) (hf : o.file = f)
      (hp : o.page = p) (pins : o.pins = 0) (look : Option Ticket) :
      Expelling s t f p (s.setTask t (.expel f p (s.labels.key f p) look)) none
  | absent (hk : s.pool.ledger.table.find? (s.labels.key f p) = none) :
      Expelling s t f p (s.setTask t (.delete f p)) none
  | taken {i : FrameNo} {o : Occupant} (ho : s.pool.ledger.occupant? i = some o) (hf : o.file = f)
      (hp : o.page = p) (pins : o.pins = 0) (idle : o.io = .idle) :
      Expelling s t f p
        ((s.setLedger (s.pool.ledger.vacate i (s.labels.key f p))).setTask t (.delete f p)) none

theorem Sturdy.expelling (hs : s.Sturdy) (hd : s.files.Distinct) (hf : s.hasFile f)
    (ht : s.tasks.find? t = some (.expel f p key look)) (fault : Option Fault) :
    s.Expelling t f p (s.after (.resume t fault)) (s.resume t fault).2.2 := by
  have agree := hs.regular.consistent
  obtain rfl : key = s.labels.key f p := hs.regular.orderly.proper ht
  have here {i : FrameNo} {o : Occupant}
      (hk : s.pool.ledger.table.find? (s.labels.key f p) = some i)
      (ho : s.pool.ledger.occupant? i = some o) : o.file = f ∧ o.page = p := by
    obtain ⟨q, hq, hkey⟩ := agree.occupant?_of_find? hk
    obtain rfl := Option.some.inj (ho.symm.trans hq)
    exact hd.key_inj (hs.placed.opened ho) hf hkey
  obtain ⟨l, r, ha⟩ : ∃ l r, s.pool.ledger.expel (s.labels.key f p) (s.name f) p = (l, r) :=
    ⟨_, _, rfl⟩
  have expels := Ledger.expel_cases ha
  rw [after, resume_fst ht, result_resume ht]
  simp only [advance, lookForExpel, ha]
  cases expels with
  | absent hk => exact .absent hk
  | astray hk ho => exact (agree.occupant?_ne_none hk ho).elim
  | pinned hk ho pins =>
    obtain ⟨hof, hop⟩ := here hk ho
    exact .pinned ho hof hop pins
  | wait hk ho busy =>
    obtain ⟨hof, hop⟩ := here hk ho
    exact .waits ho hof hop (Occupant.standing_eq_busy.1 busy).1 _
  | emptied hk ho available =>
    obtain ⟨hof, hop⟩ := here hk ho
    obtain ⟨pins, idle⟩ := Occupant.standing_eq_available.1 available
    exact .taken ho hof hop pins idle

/-- What is lost of a page that is taken out without being written can only be what makes it
dirty. -/
theorem Secure.stored_or_dirty (secure : s.Secure f p)
    (idle : ∀ i o, s.pool.ledger.occupant? i = some o → o.file = f → o.page = p → o.io = .idle) :
    s.IsStored f p ∨ s.IsDirty f p := by
  refine secure.imp_right fun ⟨i, o, ho, hof, hop, unsaved⟩ => ⟨i, o, ho, hof, hop, ?_⟩
  refine unsaved.2.resolve_right fun writing => ?_
  cases (idle i o ho hof hop).symm.trans writing

theorem Sturdy.refused_of_pinned (hs : s.Sturdy) (hd : s.files.Distinct) (hf : s.hasFile f)
    (ht : s.tasks.find? t = some (.expel f p key look)) {i : FrameNo} {o : Occupant}
    (ho : s.pool.ledger.occupant? i = some o) (hof : o.file = f) (hop : o.page = p)
    (pins : o.pins ≠ 0) (fault : Option Fault) :
    (s.resume t fault).2.2 = some (.refused (.pinned (s.name f) p i)) := by
  have step := hs.expelling hd hf ht fault
  generalize s.after (.resume t fault) = s', (s.resume t fault).2.2 = r at step ⊢
  have same {j : FrameNo} {q : Occupant} (hq : s.pool.ledger.occupant? j = some q)
      (hqf : q.file = f) (hqp : q.page = p) : j = i ∧ q = o :=
    hs.regular.sole hq ho (hqf.trans hof.symm) (hqp.trans hop.symm)
  cases step with
  | pinned hq hqf hqp =>
    obtain ⟨rfl, -⟩ := same hq hqf hqp
    rfl
  | waits hq hqf hqp free | taken hq hqf hqp free =>
    obtain ⟨-, rfl⟩ := same hq hqf hqp
    exact (pins free).elim
  | absent hk =>
    have found := hs.regular.consistent.find?_key ho
    rw [Occupant.key, hof, hop] at found
    cases hk.symm.trans found

/-- A disposal that fails before it has taken out the page has done nothing. -/
theorem Fails.of_expel (fails : s.Fails t f p m) (hs : s.Sturdy) (hd : s.files.Distinct)
    (hf : s.hasFile f) (ht : s.tasks.find? t = some (.expel f p key look)) :
    s.after m = s.endTask t := by
  cases fails with
  | @refused fault e hr =>
    have step := hs.expelling hd hf ht fault
    rw [hr] at step
    generalize s.after (.resume t fault) = s' at step ⊢
    cases step with
    | pinned => rfl
  | givenUp => exact cancel_of_plain ht ⟨rfl, rfl⟩

/-- A file that refuses to delete a page that it has has done nothing, unless it does so late. -/
theorem after_delete_refused (ha : s.files.Apart) (live : s.files.isLive f p = true)
    (ht : s.tasks.find? t = some (.delete f p)) {e : PoolError}
    (hr : (s.resume t fault).2.2 = some (.refused e)) (early : ∀ text, fault ≠ some (.lateIo text)) :
    s.after (.resume t fault) = s.endTask t := by
  obtain ⟨files, r, hx⟩ : ∃ files r, s.files.delete fault f p = (files, r) := ⟨_, _, rfl⟩
  rw [result_resume ht] at hr
  rw [after, resume_fst ht]
  simp only [advance, hx] at hr ⊢
  cases r with
  | ok => cases hr
  | error x =>
    have undone := Catalog.delete_refused ha live (congrArg Prod.snd hx) early
    rw [hx] at undone
    obtain rfl : files = s.files := undone
    rfl

theorem Fails.of_delete (fails : s.Fails t f p m) (ha : s.files.Apart)
    (live : s.files.isLive f p = true) (ht : s.tasks.find? t = some (.delete f p)) :
    s.after m = s.endTask t := by
  cases fails with
  | refused hr early => exact after_delete_refused ha live ht hr (early ht)
  | givenUp => exact cancel_of_plain ht ⟨rfl, rfl⟩

theorem store_of_delete_refused (ht : s.tasks.find? t = some (.delete f p)) {e : PoolError}
    (hr : (s.resume t fault).2.2 = some (.refused e)) : ∃ x, e = .store x := by
  rw [result_resume ht] at hr
  simp only [advance] at hr
  split at hr
  · next x _ => exact ⟨x, by cases hr; rfl⟩
  · cases hr

/-! ### The disposal as a whole -/

/-- The steps of task `t` that did not take the page out of the pool did nothing but go on with the
task. -/
def IdlesUntilTaken (t : TaskId) (f : FileNo) (p : PageNo) (h : History) : Prop :=
  ∀ x ∈ h, x.2.turn? = some t → x.1.TakesOut t f p x.2 = false →
    ∃ task, x.1.after x.2 = x.1.setTask t task

/-- How far a disposal has come that began in `s₀`, if it is still in progress. -/
inductive Undecided (s₀ : System) (t : TaskId) (f : FileNo) (p : PageNo) (h : History)
    (s : System) : Prop
  | waiting {key : PageKey} {look : Option Ticket}
      (ht : s.tasks.find? t = some (.expel f p key look)) (live : s.files.isLive f p = true)
      (untaken : ∀ x ∈ h, x.1.TakesOut t f p x.2 = false) (idle : IdlesUntilTaken t f p h)
      (kept : s₀.Secure f p → s.Intact f p (s₀.content f p))
  | taken (ht : s.tasks.find? t = some (.delete f p)) (live : s.files.isLive f p = true)
      (idle : IdlesUntilTaken t f p h)
      (kept : ∀ x ∈ h, x.1.TakesOut t f p x.2 = true → s.Intact f p (x.1.files.page? f p) ∧
        (s₀.Secure f p → x.1.content f p = s₀.content f p ∧ (x.1.IsStored f p ∨ x.1.IsDirty f p)))
      (some : ∃ x ∈ h, x.1.TakesOut t f p x.2 = true)
  | ended (ht : s.tasks.find? t = none)

section Move

variable {s₀ : System} {h : History} (hs : s.Sturdy) (hd : s.files.Distinct) (ha : s.files.Apart)
  (hp : s.Permits m)
include hs hd ha hp

theorem Undecided.wait (u : s₀.Undecided t f p h s) (placed' : (s.after m).Placed)
    (turn : m.turn? ≠ some t) (untouched : s.Touches f p m = false) :
    s₀.Undecided t f p ((s, m) :: h) (s.after m) := by
  have same := find?_after_of_ne hs.size_pos hp turn
  have untaken : s.TakesOut t f p m = false := by simp [TakesOut, same]
  have live (hl : s.files.isLive f p = true) : (s.after m).files.isLive f p = true :=
    (does_after hs.size_pos hp).isLive hl fun _ _ => not_delete_of_untouched untouched
  have kept {q : Option Page} (h : s.Intact f p q) : (s.after m).Intact f p q :=
    h.move hs hd ha hp placed' untouched
  have idles (idle : IdlesUntilTaken t f p h) : IdlesUntilTaken t f p ((s, m) :: h) := by
    intro x hx own
    rcases List.mem_cons.1 hx with rfl | hx
    · exact (turn own).elim
    · exact idle x hx own
  cases u with
  | waiting ht hl none idle keeps =>
    refine .waiting (same.trans ht) (live hl) (fun x hx => ?_) (idles idle)
      fun secure => kept (keeps secure)
    rcases List.mem_cons.1 hx with rfl | hx
    · exact untaken
    · exact none x hx
  | taken ht hl idle keeps out =>
    obtain ⟨y, hy, out⟩ := out
    refine .taken (same.trans ht) (live hl) (idles idle) (fun x hx taken => ?_)
      ⟨y, List.mem_cons_of_mem _ hy, out⟩
    rcases List.mem_cons.1 hx with rfl | hx
    · exact (Bool.false_ne_true (untaken.symm.trans taken)).elim
    · exact (keeps x hx taken).imp_left kept
  | ended ht => exact .ended (same.trans ht)

omit ha hp in
theorem Undecided.expels (ht : s.tasks.find? t = some (.expel f p key look))
    (live : s.files.isLive f p = true) (untaken : ∀ x ∈ h, x.1.TakesOut t f p x.2 = false)
    (idle : IdlesUntilTaken t f p h) (kept : s₀.Secure f p → s.Intact f p (s₀.content f p))
    (fault : Option Fault) :
    s₀.Undecided t f p ((s, .resume t fault) :: h) (s.after (.resume t fault)) := by
  have step := hs.expelling hd (hasFile_of_isLive live) ht fault
  generalize after : s.after (.resume t fault) = s', (s.resume t fault).2.2 = r at step
  have idles (now : s.TakesOut t f p (.resume t fault) = false → ∃ task, s' = s.setTask t task) :
      IdlesUntilTaken t f p ((s, .resume t fault) :: h) := by
    intro x hx own untaken
    rcases List.mem_cons.1 hx with rfl | hx
    · rw [after]
      exact now untaken
    · exact idle x hx own untaken
  -- Once the page is in no frame, it contains what its file has.
  have out (find : s'.tasks.find? t = some (.delete f p)) (live' : s'.files.isLive f p = true)
      (same : s'.files.page? f p = s.files.page? f p)
      (gone : s'.pool.ledger.table.find? (s'.labels.key f p) = none)
      (idle : ∀ i o, s.pool.ledger.occupant? i = some o → o.file = f → o.page = p → o.io = .idle) :
      s₀.Undecided t f p ((s, .resume t fault) :: h) s' := by
    have now : s.TakesOut t f p (.resume t fault) = true := by
      simp [TakesOut, after, find, ht, Task.deletes]
    refine .taken find live' (idles fun untaken => ?_) (fun x hx taken => ?_)
      ⟨_, List.mem_cons_self, now⟩
    · exact (Bool.false_ne_true (untaken.symm.trans now)).elim
    rcases List.mem_cons.1 hx with rfl | hx
    · constructor
      · rw [← same]
        exact intact_of_absent live' gone
      · intro secure
        exact ⟨(kept secure).content, (kept secure).secure.stored_or_dirty idle⟩
    · exact (Bool.false_ne_true ((untaken x hx).symm.trans taken)).elim
  cases step with
  | pinned => exact .ended (Table.find?_erase_self ..)
  | waits ho hof hop pins look =>
    have find : (s.setTask t (.expel f p (s.labels.key f p) look)).tasks.find? t = _ :=
      Table.find?_insert_self ..
    refine .waiting find live (fun x hx => ?_) (idles fun _ => ⟨_, rfl⟩) fun secure => ?_
    · rcases List.mem_cons.1 hx with rfl | hx
      · simp [TakesOut, after, find, Task.deletes]
      · exact untaken x hx
    · obtain ⟨live, content, secure⟩ := kept secure
      exact ⟨live, content, secure⟩
  | absent hk =>
    refine out (Table.find?_insert_self ..) live rfl hk fun i o ho hof hop => ?_
    exact (hs.regular.lacks_of_absent hk i o ho ⟨hof, hop⟩).elim
  | @taken j q hq hqf hqp pins idle =>
    refine out (Table.find?_insert_self ..) live rfl (Table.find?_erase_self ..)
      fun i o ho hof hop => ?_
    obtain ⟨-, rfl⟩ := hs.regular.sole hq ho (hqf.trans hof.symm) (hqp.trans hop.symm)
    exact idle

omit ha in
theorem Undecided.step (u : s₀.Undecided t f p h s) (turn : m.turn? = some t) (hb : ¬ m.Begins t) :
    s₀.Undecided t f p ((s, m) :: h) (s.after m) := by
  cases m with
  | begin v op => exact (hb (Option.some.inj turn)).elim
  | resume v fault =>
    obtain rfl := Option.some.inj turn
    cases u with
    | waiting ht live untaken idle kept => exact .expels hs hd ht live untaken idle kept fault
    | taken ht =>
      refine .ended ?_
      rw [find?_after_resume ht]
      simp only [advance]
      split <;> rfl
    | ended ht =>
      obtain ⟨task, before, -⟩ := isReady_iff.1 hp
      cases ht.symm.trans before
  | cancel v =>
    obtain rfl := Option.some.inj turn
    obtain ⟨task, before, -⟩ := hp
    exact .ended (find?_after_cancel before)
  | abandon v =>
    obtain rfl := Option.some.inj turn
    obtain ⟨k, stay, purpose, stage, before⟩ := hp
    cases u with
    | waiting ht | taken ht | ended ht => cases ht.symm.trans before
  | _ => cases turn

end Move

end System

section Dispose

variable {n : Nat} (hn : 0 < n) {c : Catalog} (hd : c.Distinct) (ha : c.Apart) {h₀ h : History}
  {s₀ s : System} (run : Reaches (fun _ => True) (.new n c) h₀ s₀) {t : TaskId} {f : FileNo}
  {p : PageNo}
include hn hd ha run

omit run in
theorem Reaches.yields (run : Reaches (fun _ => True) (.new n c) h s) {q : Option Page}
    (intact : s.Intact f p q) : s.Yields f p q := by
  intro h' s' more untouched
  obtain ⟨live, content, -⟩ := run.intact hn hd ha intact more untouched
  refine ⟨live, content, fun i hi => ?_⟩
  rw [← content]
  exact System.content_of_shown ((run.append more).shared.regular hn) hi

/-- A disposal that began in `s₀` is undecided in every later state, as long as nobody else touches
the page. -/
theorem Reaches.undecided (begins : s₀.Permits (.begin t (.dispose f p)))
    (live : s₀.files.isLive f p = true)
    (since : Reaches (fun m => ¬ m.Begins t) (s₀.after (.begin t (.dispose f p))) h s)
    (others : ∀ x ∈ h, x.2.turn? ≠ some t → x.1.Touches f p x.2 = false) :
    s₀.Undecided t f p h s := by
  induction since with
  | start =>
    refine .waiting (Table.find?_insert_self ..) live nofun nofun fun secure => ?_
    exact ⟨live, rfl, secure⟩
  | @move h s m since possible unbegun ih =>
    have total := (run.move begins trivial).append (since.mono fun _ _ => trivial)
    have hs := total.shared.sturdy hn hd
    have distinct := total.shared.distinct hn hd
    have before := ih fun x hx => others x (List.mem_cons_of_mem _ hx)
    by_cases turn : m.turn? = some t
    · exact before.step hs distinct possible turn unbegun
    · exact before.wait hs distinct (total.apart hn ha) possible
        ((total.move possible trivial).shared.placed hn hd) turn
        (others (s, m) List.mem_cons_self turn)

end Dispose

/-- What remains of a page that its file has if it is to be disposed of and that is refused or given
up. The last step does nothing but end the operation, and the page is one that its file has. As long
as the page has not been taken out of the pool, no step has done anything: that is so as long as
somebody has it, and the disposal is refused for that reason only then. The page yields what it
contained before, then. If it has been taken out, it yields what its file had at that moment. So all
that can be lost are changes that were still to be written then. While the disposal is in progress
nobody else may edit the page or dispose of it, but it may be fetched and written, and evicted to be
loaded again. -/
theorem failed_disposals_keep_pages {n : Nat} (hn : 0 < n) {c : Catalog} (hd : c.Distinct)
    (ha : c.Apart) {h₀ : History} {s₀ : System} (run : Reaches (fun _ => True) (.new n c) h₀ s₀)
    {t : TaskId} {f : FileNo} {p : PageNo} (begins : s₀.Permits (.begin t (.dispose f p)))
    (live : s₀.files.isLive f p = true) {h : History} {s : System}
    (since : Reaches (fun m => ¬ m.Begins t) (s₀.after (.begin t (.dispose f p))) h s)
    (others : ∀ x ∈ h, x.2.turn? ≠ some t → x.1.Touches f p x.2 = false)
    {m : Move} (possible : s.Permits m) (fails : s.Fails t f p m) :
    s.after m = s.endTask t ∧ (s.after m).files.isLive f p = true ∧ System.IdlesUntilTaken t f p h ∧
    ((∀ x ∈ h, x.1.TakesOut t f p x.2 = false) →
      (s₀.Secure f p → (s.after m).Yields f p (s₀.content f p)) ∧
      ∀ i o, s.pool.ledger.occupant? i = some o → o.file = f → o.page = p → o.pins ≠ 0 →
        ∀ fault, (s.resume t fault).2.2 = some (.refused (.pinned (s.name f) p i))) ∧
    ∀ x ∈ h, x.1.TakesOut t f p x.2 = true →
      (s.after m).Yields f p (x.1.files.page? f p) ∧
      (s₀.Secure f p → x.1.content f p = s₀.content f p ∧ (x.1.IsStored f p ∨ x.1.IsDirty f p)) ∧
      ∀ fault e, m = .resume t fault → (s.resume t fault).2.2 = some (.refused e) →
        ∃ x, e = .store x := by
  have total : Reaches (fun _ => True) (.new n c) _ s :=
    (run.move begins trivial).append (since.mono fun _ _ => trivial)
  have hs := total.shared.sturdy hn hd
  have distinct := total.shared.distinct hn hd
  have yields {q : Option Page} (still : s.after m = s.endTask t) (intact : s.Intact f p q) :
      (s.after m).Yields f p q := by
    refine (total.move possible trivial).yields hn hd ha ?_
    rw [still]
    exact ⟨intact.live, intact.content, intact.secure⟩
  cases run.undecided hn hd ha begins live since others with
  | waiting ht live untaken idle kept =>
    have hf := System.hasFile_of_isLive live
    have still := fails.of_expel hs distinct hf ht
    refine ⟨still, by rw [still]; exact live, idle, fun _ => ⟨?_, ?_⟩, fun x hx taken => ?_⟩
    · exact fun secure => yields still (kept secure)
    · exact fun i o ho hof hop pins => hs.refused_of_pinned distinct hf ht ho hof hop pins
    · exact (Bool.false_ne_true ((untaken x hx).symm.trans taken)).elim
  | taken ht live idle kept out =>
    have still := fails.of_delete (total.apart hn ha) live ht
    refine ⟨still, by rw [still]; exact live, idle, fun untaken => ?_, fun x hx taken => ?_⟩
    · obtain ⟨x, hx, taken⟩ := out
      exact (Bool.false_ne_true ((untaken x hx).symm.trans taken)).elim
    · obtain ⟨intact, before⟩ := kept x hx taken
      exact ⟨yields still intact, before, fun _ _ _ hr => System.store_of_delete_refused ht hr⟩
  | ended ht =>
    cases fails with
    | refused hr => simp [System.resume, ht] at hr
    | givenUp =>
      obtain ⟨task, before, -⟩ := possible
      cases ht.symm.trans before

/-- The page that somebody has changed and given back is about to be deleted. -/
def smallDeleting : History × System :=
  (smallReturned.2.after (.begin 3 (.dispose 0 0))).play [.resume 3 none]

theorem reaches_smallDeleting : Reaches (fun m => ¬ m.Begins 3)
    (smallReturned.2.after (.begin 3 (.dispose 0 0))) smallDeleting.1 smallDeleting.2 :=
  .play ⟨rfl, trivial⟩ (by simp [Move.Begins])

theorem fails_smallDeleting : smallDeleting.2.Fails 3 0 0 (.resume 3 (some .full)) :=
  .refused rfl fun _ _ h => by cases h

/-- The file refuses to delete a page that has left the pool with changes that were never written,
and the page yields what the file had. -/
theorem failed_disposals_keep_pages_small : ∃ h₀ s₀ h s, Reaches (fun _ => True) .small h₀ s₀ ∧
    s₀.Permits (.begin 3 (.dispose 0 0)) ∧ s₀.files.isLive 0 0 = true ∧
    Reaches (fun m => ¬ m.Begins 3) (s₀.after (.begin 3 (.dispose 0 0))) h s ∧
    s.Fails 3 0 0 (.resume 3 (some .full)) ∧
    (s.after (.resume 3 (some .full))).Yields 0 0 (some .zero) := by
  have run := reaches_smallReturned.mono fun _ _ => trivial
  have begins : smallReturned.2.Permits (.begin 3 (.dispose 0 0)) := ⟨rfl, Nat.zero_lt_one⟩
  have possible : smallDeleting.2.Permits (.resume 3 (some .full)) := rfl
  have others : ∀ x ∈ smallDeleting.1, x.2.turn? ≠ some 3 → x.1.Touches 0 0 x.2 = false := by decide
  obtain ⟨-, -, -, -, taken⟩ := failed_disposals_keep_pages Nat.zero_lt_one distinct_small apart_small
    run begins rfl reaches_smallDeleting others possible fails_smallDeleting
  exact ⟨_, _, _, _, run, begins, rfl, reaches_smallDeleting, fails_smallDeleting,
    (taken _ (.head _) rfl).1⟩

/-- The file has refused, and somebody reads the page. -/
def smallReread : History × System := (smallDeleting.2.after (.resume 3 (some .full))).play
  [.begin 4 (.fetch 0 0 1), .resume 4 none, .resume 4 none,
    .begin 5 (.access 1 ⟨0, 0, 0, 2⟩ .read), .resume 5 none]

/-- Nobody else did anything while the page was disposed of, but the changes that had been given
back are gone. -/
theorem unwritten_changes_lost : ∃ h₀ s₀ h s h' s', Reaches (fun _ => True) .small h₀ s₀ ∧
    s₀.Permits (.begin 3 (.dispose 0 0)) ∧ s₀.files.isLive 0 0 = true ∧
    s₀.pool.ledger.occupant? 0 = some ⟨0, 0, 0, true, true, .idle⟩ ∧
    s₀.content 0 0 = some (Page.zero.set 0 1) ∧
    Reaches (fun m => ¬ m.Begins 3) (s₀.after (.begin 3 (.dispose 0 0))) h s ∧
    (∀ x ∈ h, x.2.turn? = some 3) ∧ s.Permits (.resume 3 (some .full)) ∧
    s.Fails 3 0 0 (.resume 3 (some .full)) ∧
    Reaches (fun _ => True) (s.after (.resume 3 (some .full))) h' s' ∧
    (∀ x ∈ h', x.1.Touches 0 0 x.2 = false) ∧
    s'.tasks.find? 5 = some (.access 1 ⟨0, 0, 0, 2⟩ .read .inside) ∧
    (s'.resume 5 none).2.2 = some (.content .zero) ∧ Page.zero ≠ Page.zero.set 0 1 := by
  have reread : Reaches (fun _ => True) (smallDeleting.2.after (.resume 3 (some .full)))
      smallReread.1 smallReread.2 := .play ⟨⟨rfl, Nat.zero_lt_one, rfl, nofun⟩, rfl, rfl,
    ⟨rfl, ⟨false, rfl⟩, nofun⟩, rfl, trivial⟩ fun _ _ => trivial
  have lost : Page.zero ≠ Page.zero.set 0 1 := by
    intro same
    have first := congrArg (fun q : Page => q[0]) same
    simp [Page.zero] at first
  exact ⟨_, _, _, _, _, _, reaches_smallReturned.mono fun _ _ => trivial, ⟨rfl, Nat.zero_lt_one⟩, rfl,
    rfl, rfl, reaches_smallDeleting, by decide, rfl, fails_smallDeleting, reread, by decide, rfl,
    rfl, lost⟩

end SecondChance
