import SecondChance.Proofs.Store.SoleFile
import SecondChance.Proofs.System.Independence
import SecondChance.Scan.Workload

/-!
What the scan program has a pool do.

The program asks for one thing after the other and has one page on loan at most. So its pool stands
for a desk, and all that matters of it is what the desk offers: so many pages with certain contents,
one of which may be on loan. Each operation of the program takes what is offered into what it has to
be afterwards. The file itself may lag behind, but it remains the only one, in the same place.
-/

namespace SecondChance

/-! ### At a desk -/

namespace Catalog.Comprises

variable {c : Catalog} {f : FileNo} {n count : Nat} {pages : PageNo → Page}
  (h : c.Comprises f count pages) (lent : Option (FileNo × PageNo))
include h

theorem fetch (hn : n < count) : ∃ c', Desk.fetch ⟨c, lent⟩ f n = (⟨c', some (f, n)⟩, .lent n 0) ∧
    c'.Comprises f count pages := by
  obtain ⟨comprises, result⟩ := h.read hn .zero
  rw [Desk.fetch]
  generalize c.read none f n (.page .zero) = x at comprises result ⊢
  obtain ⟨c', r⟩ := x
  obtain rfl : r = .ok (pages n) := result
  exact ⟨c', rfl, comprises⟩

theorem allocate_fetch (zeros : pages count = .zero) :
    ∃ c', Desk.allocate ⟨c, lent⟩ f = (⟨c', some (f, count)⟩, .lent count 0) ∧
      c'.Comprises f (count + 1) pages := by
  obtain ⟨grown, result⟩ := h.allocate zeros
  rw [Desk.allocate]
  generalize c.allocate none f = x at grown result ⊢
  obtain ⟨c', r⟩ := x
  obtain rfl : r = .ok count := result
  exact grown.fetch lent (Nat.lt_succ_self count)

theorem edit (hn : n < count) (e : Page → Page) :
    ∃ c', Desk.edit ⟨c, lent⟩ f n e = (⟨c', lent⟩, .done) ∧
      c'.Comprises f count fun k => if k = n then e (pages n) else pages k := by
  obtain ⟨comprises, result⟩ := h.read hn .zero
  rw [Desk.edit]
  dsimp only
  generalize c.read none f n (.page .zero) = x at comprises result ⊢
  obtain ⟨c', r⟩ := x
  obtain rfl : r = .ok (pages n) := result
  obtain ⟨written, done⟩ := comprises.write hn (e (pages n))
  dsimp only at written done ⊢
  generalize c'.write none f n (.page (e (pages n))) = y at written done ⊢
  obtain ⟨c'', r⟩ := y
  obtain rfl : r = .ok () := done
  exact ⟨c'', rfl, written⟩

end Catalog.Comprises

namespace System

variable {s : System} {op : Operation} {t : TaskId} {P : Catalog → Prop}

/-! ### Files -/

section Keeps

variable (keeps : ∀ {c : Catalog} (f : FileNo) (x : StoreCall), P c → P (c.call f x).1)
include keeps

/-- A property of the files that every call keeps is kept by every undisturbed step of a task. -/
theorem files_resume (h : s.Regular) (ready : s.Permits (.resume t none)) (hP : P s.files) :
    P (s.after (.resume t none)).files := by
  have deed := does_after h.consistent.size_pos ready
  rw [Does] at deed
  generalize (s.after (.resume t none)).pool.ledger = l,
    (s.after (.resume t none)).pool.buffers = buffers,
    (s.after (.resume t none)).files = files at deed ⊢
  generalize hm : Move.resume t none = m at deed
  cases deed with
  | @load _ _ stay _ _ _ hr =>
    cases hm
    have kept := keeps stay.file (.read stay.page (.page (s.pool.buffer stay.frame))) hP
    rwa [Catalog.call, hr] at kept
  | @save _ _ stay _ _ _ hr =>
    cases hm
    have kept := keeps stay.file (.write stay.page (.page (s.pool.buffer stay.frame))) hP
    rwa [Catalog.call, hr] at kept
  | strike => cases hm
  | @allocate _ _ file =>
    cases hm
    exact keeps file .allocate hP
  | @delete _ _ file page =>
    cases hm
    exact keeps file (.delete page) hP
  | _ => exact hP

theorem Quiescent.files_carryOut (h : s.Quiescent) (admits : s.Admits op) (hP : P s.files) :
    P (s.carryOut op).1.files := by
  have first : P (s.begin 0 op).files := by cases op <;> exact hP
  obtain ⟨-, -, kept, -⟩ := h.carryOut (I := fun _ s => P s.files) (Q := fun _ s => P s.files)
    admits first fun {s task} alone ht hP => by
      have kept := files_resume keeps alone.regular (alone.isReady ht) hP
      generalize (s.advance 0 none task).2.2 = turn
      cases turn <;> exact kept
  exact kept

end Keeps

theorem files_release (s : System) (k : HandleNo) : (s.release k).1.files = s.files := by
  unfold release
  split <;> rfl

/-! ### What is offered -/

/-- No operation is in progress, and there is one file, which is on disk. To those who go through
the pool it has so many pages, and page `n` contains `pages n`. -/
structure Offers (s : System) (path place : String) (lent : Option PageNo) (count : Nat)
    (pages : PageNo → Page) : Prop where
  still : s.Quiescent
  sole : s.files.Sole path place
  desk : ∃ c, s.Stands ⟨c, lent.map (0, ·)⟩ ∧ c.Comprises 0 count pages

namespace Offers

variable {path place : String} {lent : Option PageNo} {n count : Nat} {pages : PageNo → Page}

theorem new {frames : Nat} (hn : 0 < frames) {c : Catalog} (sole : c.Sole path place)
    (comprises : c.Comprises 0 count pages) :
    (System.new frames c).Offers path place none count pages where
  still := .new hn c
  sole := sole
  desk := ⟨c, .new hn sole.distinct sole.apart, comprises⟩

/-- An operation that comes to the same at the pool and at the desk is completed with the result it
has at the desk, and the pool offers the pages that the desk has afterwards. -/
theorem complete {c : Catalog} {r : Result} {count' : Nat} {pages' : PageNo → Page}
    (h : s.Offers path place lent count pages) (admits : s.Admits op) (lent' : Option PageNo)
    (agree : Agree (s.carryOut op) (⟨c, lent'.map (0, ·)⟩, .ended r))
    (comprises : c.Comprises 0 count' pages') :
    ∃ r', Scan.complete s op = ((s.carryOut op).1, some r') ∧ r'.unplaced = r ∧
      (s.carryOut op).1.Offers path place lent' count' pages' := by
  have sole : (s.carryOut op).1.files.Sole path place :=
    h.still.files_carryOut (P := (·.Sole path place)) (fun f x hc => hc.call f x) admits h.sole
  obtain ⟨quiescent, stands, reply⟩ := agree
  have offers : (s.carryOut op).1.Offers path place lent' count' pages' :=
    ⟨quiescent, sole, c, stands, comprises⟩
  unfold carryOut at reply offers ⊢
  rw [Scan.complete]
  generalize (s.begin 0 op).run s.ampleSteps 0 = x at reply offers ⊢
  obtain ⟨s', events, result⟩ := x
  cases result with
  | none => cases reply
  | some r' => exact ⟨r', rfl, Reply.ended.inj reply, offers⟩

theorem fetch (h : s.Offers path place none count pages) (hn : n < count) :
    ∃ s' i, Scan.complete s (.fetch 0 n 0) = (s', some (.lent n i)) ∧
      s'.Offers path place (some n) count pages := by
  obtain ⟨c, stands, comprises⟩ := h.desk
  obtain ⟨c', fetched, comprises'⟩ := comprises.fetch none hn
  have admits : s.Admits (.fetch 0 n 0) :=
    ⟨(stands.hasFile_iff 0).2 comprises.isOpen, stands.lends.nothing rfl, h.still.isUnused 0⟩
  have agree := agree_fetch stands h.still comprises.isOpen rfl n
  rw [Option.map_none, fetched] at agree
  obtain ⟨r, done, unplaced, offers⟩ := h.complete admits (some n) agree comprises'
  cases r with
  | lent p i =>
    cases unplaced
    exact ⟨_, i, done, offers⟩
  | _ => cases unplaced

theorem allocate (h : s.Offers path place none count pages) (zeros : pages count = .zero) :
    ∃ s' i, Scan.complete s (.allocate 0 0) = (s', some (.lent count i)) ∧
      s'.Offers path place (some count) (count + 1) pages := by
  obtain ⟨c, stands, comprises⟩ := h.desk
  obtain ⟨c', allocated, comprises'⟩ := comprises.allocate_fetch none zeros
  have admits : s.Admits (.allocate 0 0) :=
    ⟨(stands.hasFile_iff 0).2 comprises.isOpen, stands.lends.nothing rfl, h.still.isUnused 0⟩
  have agree := agree_allocate stands h.still comprises.isOpen rfl
  rw [Option.map_none, allocated] at agree
  obtain ⟨r, done, unplaced, offers⟩ := h.complete admits (some count) agree comprises'
  cases r with
  | lent p i =>
    cases unplaced
    exact ⟨_, i, done, offers⟩
  | _ => cases unplaced

theorem borrowed (h : s.Offers path place (some n) count pages) (hn : n < count) :
    ∃ x, s.handles.find? 0 = some x ∧ s.pool.buffer x.stay.frame = pages n := by
  obtain ⟨c, stands, comprises⟩ := h.desk
  obtain ⟨x, hx, file, page, -⟩ := stands.lends.page rfl
  have lent : (s.handles.find? 0).map (·.stay) = some x.stay := by
    rw [hx]
    rfl
  obtain ⟨-, -, content⟩ := stands.lent lent
  dsimp only at content
  rw [file, page, comprises.page?_of_lt hn] at content
  exact ⟨x, hx, (Option.some.inj content).symm⟩

theorem edit (h : s.Offers path place (some n) count pages) (hn : n < count) {x : Handle}
    (hx : s.handles.find? 0 = some x) (e : Page → Page) :
    ∃ s', Scan.complete s (.access 0 x.stay (.write e)) = (s', some .done) ∧
      s'.Offers path place (some n) count fun k => if k = n then e (pages n) else pages k := by
  obtain ⟨c, stands, comprises⟩ := h.desk
  obtain ⟨c', edited, comprises'⟩ := comprises.edit (some (0, n)) hn e
  have agree := agree_edit stands h.still rfl e
  rw [accessLent, hx, Option.map_some, edited] at agree
  obtain ⟨r, done, unplaced, offers⟩ :=
    h.complete (h.still.admits_access hx (.write e)) (some n) agree comprises'
  cases r with
  | done => exact ⟨_, done, offers⟩
  | _ => cases unplaced

theorem giveBack (h : s.Offers path place (some n) count pages) :
    ∃ s', Scan.giveBack s = .ok s' ∧ s'.Offers path place none count pages := by
  obtain ⟨c, stands, comprises⟩ := h.desk
  obtain ⟨quiescent, stands', reply⟩ := agree_release stands h.still rfl
  have files := s.files_release 0
  unfold releaseLent at quiescent stands' reply
  unfold Scan.giveBack
  generalize s.release 0 = x at quiescent stands' reply files ⊢
  obtain ⟨s', r⟩ := x
  cases r with
  | error e => cases reply
  | ok => exact ⟨s', rfl, quiescent, files ▸ h.sole, c, stands', comprises⟩

/-- A flush of everything is done, and then the file itself has the pages that the pool has offered.
-/
theorem flush (h : s.Offers path place none count pages) :
    ∃ s', Scan.flush s = .ok s' ∧ s'.files.Sole path place ∧ s'.files.pageCount 0 = count ∧
      ∀ n < count, s'.files.page? 0 n = some (pages n) := by
  obtain ⟨c, stands, comprises⟩ := h.desk
  have admits : s.Admits .flushAll := trivial
  have agree := agree_flushAll stands h.still
  obtain ⟨r, done, unplaced, offers⟩ := h.complete admits none agree comprises
  have idle : s.isIdle = true := stands.isIdle_eq h.still
  obtain ⟨-, equals⟩ : _ ∧ (s.carryOut .flushAll).1.files.Equals c := stands.flushed h.still idle
  have isOpen : 0 < (s.carryOut .flushAll).1.files.files.size := by
    rw [offers.sole.size]
    exact Nat.one_pos
  refine ⟨(s.carryOut .flushAll).1, ?_, offers.sole, ?_, fun n hn => ?_⟩
  · rw [Scan.flush, done]
    cases r with
    | done => rfl
    | _ => cases unplaced
  · rw [equals.pageCount isOpen, comprises.pageCount_eq]
  · rw [equals.page? isOpen, comprises.page?_of_lt hn]

end Offers

end System

end SecondChance
