import SecondChance.Proofs.System.BorrowedPages
import SecondChance.Proofs.System.Waiting

/-!
Runs of a pool that does not have its files to itself.

Others may use the page files as well: between two moves they write, allocate or delete whatever
they like, and only go on reporting who they are. What a pool does with its frames, latches and
handles does not depend on what is in the files, so it holds in these runs too. Nor does it depend
on who gives back pins by page, so nothing is said of pins here.
-/

namespace SecondChance

namespace Ledger

variable {labels : Labels} {l l' : Ledger}

theorem Eased.generation (h : l.Eased labels l') (i : FrameNo) :
    l'.generation i = l.generation i := by
  induction h with
  | cooled h => exact h.generation i
  | vacated _ _ _ _ ih => exact (generation_vacate ..).trans ih

theorem generation_settle (labels : Labels) (l : Ledger) (t : Transfer) (ok : Bool) (i : FrameNo) :
    (l.settle labels t ok).generation i = l.generation i := by
  unfold settle
  split
  · rfl
  · split
    · split
      · exact generation_vacate ..
      · exact generation_setOccupant ..
      · exact generation_setOccupant ..
    · rfl

theorem Returns.generation {stay : Stay} {dirty : Bool} {r : Except PoolError Unit}
    (h : l.Returns labels stay dirty l' r) (i : FrameNo) : l'.generation i = l.generation i := by
  cases h with
  | ok => exact generation_setOccupant ..
  | _ => rfl

end Ledger

namespace System

variable {s s' : System} {k : List Mark}

theorem Act.generation_le (a : Act s k s') (i : FrameNo) :
    s.pool.ledger.generation i ≤ s'.pool.ledger.generation i := by
  cases a with
  | ease he => exact Nat.le_of_eq (he.generation i).symm
  | expel => exact Nat.le_of_eq (Ledger.generation_vacate ..).symm
  | hit | claim => exact Nat.le_of_eq (Ledger.generation_setOccupant ..).symm
  | install ht hk hi ho => exact Nat.le.intro (Ledger.generation_install hi ..).symm
  | loaded | lost | wrote | unwritten => exact Nat.le_of_eq (Ledger.generation_settle ..).symm
  | @enter _ _ _ purpose => cases purpose <;> exact Nat.le_refl _
  | giveBack hh hu hr => exact Nat.le_of_eq ((Ledger.unpinStay_cases hr).generation i).symm
  | unpin hr =>
    rcases Ledger.unpinPage_cases hr with ⟨rfl, -⟩ | ⟨_, _, -, -, -, rfl, -⟩
    · exact Nat.le_refl _
    · exact Nat.le_of_eq (Ledger.generation_setOccupant ..).symm
  | _ => exact Nat.le_refl _

theorem Acts.generation_le (a : Acts s k s') (i : FrameNo) :
    s.pool.ledger.generation i ≤ s'.pool.ledger.generation i := by
  induction a with
  | done => exact Nat.le_refl _
  | more first _ ih => exact Nat.le_trans (first.generation_le i) ih

/-- Every page is of a file that is open, and whoever has a page on loan has the one that was asked
for, as long as it is there. Whether it is there is left open. -/
structure Placed (s : System) : Prop where
  sized : s.pool.buffers.size = s.pool.ledger.size
  opened {i : FrameNo} {o : Occupant} (ho : s.pool.ledger.occupant? i = some o) : s.hasFile o.file
  lent {h : HandleNo} {x : Handle} (hh : s.handles.find? h = some x) :
    x.stay.generation ≤ s.pool.ledger.generation x.stay.frame ∧
      ∀ o, (s.pool.ledger.frame x.stay.frame).occupantAt x.stay.generation = some o →
        o.file = x.stay.file ∧ o.page = x.stay.page

theorem Placed.new (n : Nat) (c : Catalog) : (System.new n c).Placed where
  sized := (Seated.new n c).sized
  opened := (Seated.new n c).opened
  lent hh := nomatch hh

theorem Act.occupantAt_back (a : Act s k s') (hs : s.Regular) {i : FrameNo} {g : Nat}
    (hle : g ≤ s.pool.ledger.generation i) {o' : Occupant}
    (ho' : (s'.pool.ledger.frame i).occupantAt g = some o') :
    ∃ o, (s.pool.ledger.frame i).occupantAt g = some o ∧ o'.file = o.file ∧ o'.page = o.page := by
  obtain ⟨hg', ho'⟩ := Ledger.occupantAt_frame.1 ho'
  rcases (a.turnover hs).back ho' with ⟨o, ho, hf, hp, hg⟩ | ⟨-, hg⟩
  · exact ⟨o, Ledger.occupantAt_frame.2 ⟨hg.symm.trans hg', ho⟩, hf, hp⟩
  · omega

theorem Act.placed (a : Act s k s') (hs : s.Regular) (hd : s.files.Distinct) (h : s.Placed) :
    s'.Placed := by
  constructor
  case sized => rw [a.buffers_size, a.size, h.sized]
  case opened =>
    intro i o' ho'
    rw [a.hasFile]
    rcases (a.turnover hs).back ho' with ⟨o, ho, hf, -⟩ | ⟨hf, -⟩
    · rw [hf]
      exact h.opened ho
    · exact hf
  case lent =>
    intro j x hx
    have later := a.generation_le x.stay.frame
    rcases a.handle_back hs hd h.opened hx with ⟨y, hy, hst⟩ | ⟨p, hp, hpf, hpp⟩
    · obtain ⟨hle, hold⟩ := h.lent hy
      rw [hst] at hle hold
      refine ⟨Nat.le_trans hle later, fun o' ho' => ?_⟩
      obtain ⟨o, ho, hf, hp⟩ := a.occupantAt_back hs hle ho'
      rw [hf, hp]
      exact hold o ho
    · have hle : x.stay.generation ≤ s.pool.ledger.generation x.stay.frame :=
        Nat.le_of_eq (Ledger.occupantAt_frame.1 hp).1.symm
      refine ⟨Nat.le_trans hle later, fun o' ho' => ?_⟩
      obtain ⟨o, ho, hf, hpage⟩ := a.occupantAt_back hs hle ho'
      rw [hp] at ho
      obtain rfl := Option.some.inj ho
      exact ⟨hf.trans hpf, hpage.trans hpp⟩

/-! ### Others at work on the files -/

section Files

variable {files : Catalog} (same : files.registry = s.files.registry)
include same

theorem Regular.setFiles (hs : s.Regular) : (s.setFiles files).Regular where
  orderly := hs.orderly.congr rfl rfl same
  consistent := by
    have hl : (s.setFiles files).labels = s.labels := Catalog.labels_of_registry same
    rw [hl]
    exact hs.consistent
  escorted := hs.escorted

theorem Placed.setFiles (h : s.Placed) : (s.setFiles files).Placed where
  sized := h.sized
  opened {i o} ho := by
    show o.file < files.files.size
    rw [Catalog.size_of_registry same]
    exact h.opened ho
  lent := h.lent

omit same in
theorem Attended.setFiles (h : s.Attended) (files : Catalog) : (s.setFiles files).Attended where
  latches := h.latches
  settled := h.settled
  lent := h.lent
  queues := h.queues
  announced t w hw uncalled := by
    obtain ⟨drawn, under⟩ := h.announced t w hw uncalled
    exact ⟨drawn, under⟩

end Files

end System

/-- A run in which only moves of some kind are made, and others use the files as they like. -/
inductive ReachesShared (allowed : Move → Prop) (s₀ : System) : History → System → Prop
  | start : ReachesShared allowed s₀ [] s₀
  | move {h : History} {s : System} {m : Move} (run : ReachesShared allowed s₀ h s)
      (possible : s.Permits m) (kind : allowed m) :
      ReachesShared allowed s₀ ((s, m) :: h) (s.after m)
  | others {h : History} {s : System} {files : Catalog} (run : ReachesShared allowed s₀ h s)
      (same : files.registry = s.files.registry) : ReachesShared allowed s₀ h (s.setFiles files)

theorem Reaches.shared {allowed : Move → Prop} {s₀ s : System} {h : History}
    (run : Reaches allowed s₀ h s) : ReachesShared allowed s₀ h s := by
  induction run with
  | start => exact .start
  | move _ possible kind ih => exact .move ih possible kind

namespace ReachesShared

variable {allowed : Move → Prop} {s₀ s s' : System} {h h' : History}

theorem mono {allowed' : Move → Prop} (hle : ∀ m, allowed m → allowed' m)
    (run : ReachesShared allowed s₀ h s) : ReachesShared allowed' s₀ h s := by
  induction run with
  | start => exact .start
  | move _ possible kind ih => exact .move ih possible (hle _ kind)
  | others _ same ih => exact .others ih same

theorem append (run : ReachesShared allowed s₀ h s) (more : ReachesShared allowed s h' s') :
    ReachesShared allowed s₀ (h' ++ h) s' := by
  induction more with
  | start => exact run
  | move _ possible kind ih => exact .move ih possible kind
  | others _ same ih => exact .others ih same

/-- What holds at the beginning of a run and is kept by every act of a regular system, and whatever
others do to the files, holds all the way. -/
theorem preserve {P : List Mark → System → Prop} (hs : s₀.Regular) (hP₀ : P [] s₀)
    (hP : ∀ {s s' : System} {ks k : List Mark}, s.Regular → P ks s → s.Act k s' → P (ks ++ k) s')
    (hP' : ∀ {s : System} {ks : List Mark} {files : Catalog},
      files.registry = s.files.registry → P ks s → P ks (s.setFiles files))
    (run : ReachesShared allowed s₀ h s) : s.Regular ∧ P h.marks s := by
  induction run with
  | start => exact ⟨hs, hP₀⟩
  | @move h s m _ possible kind ih =>
    obtain ⟨hr, hp⟩ := ih
    have acts := System.acts_after hr.orderly hr.consistent.size_pos possible
    have anything : ∀ k ∈ s.marks m, (fun _ : Mark => True) k := fun _ _ => trivial
    apply acts.preserve (P := fun ks s => s.Regular ∧ P ks s) _ anything ⟨hr, hp⟩
    exact fun h _ a => ⟨a.regular h.1, hP h.1 h.2 a⟩
  | others _ same ih => exact ⟨ih.1.setFiles same, hP' same ih.2⟩

section New

variable {n : Nat} (hn : 0 < n) {c : Catalog} (run : ReachesShared allowed (.new n c) h s)
include hn run

theorem regular : s.Regular :=
  (run.preserve (P := fun _ _ => True) (.new hn c) trivial (fun _ _ _ => trivial)
    fun _ _ => trivial).1

theorem registry : s.files.registry = c.registry :=
  (run.preserve (P := fun _ s => s.files.registry = c.registry) (.new hn c) rfl
    (fun _ h a => a.registry.trans h) fun same h => same.trans h).2

theorem distinct (hd : c.Distinct) : s.files.Distinct := hd.congr (run.registry hn)

theorem hasFile (f : FileNo) : s.hasFile f ↔ f < c.files.size := by
  rw [System.hasFile, Catalog.size_of_registry (run.registry hn)]

theorem placed (hd : c.Distinct) : s.Placed := by
  refine (run.preserve (P := fun _ s => s.files.Distinct ∧ s.Placed) (.new hn c)
    ⟨hd, .new n c⟩ (fun hs h a => ?_) fun same h => ?_).2.2
  · exact ⟨h.1.congr a.registry, a.placed hs h.1 h.2⟩
  · exact ⟨h.1.congr same, h.2.setFiles same⟩

theorem attended : s.Attended := by
  induction run with
  | start => exact .new n c
  | move run possible _ ih => exact ih.move (run.regular hn) possible
  | others _ _ ih => exact ih.setFiles _

end New

end ReachesShared

end SecondChance
