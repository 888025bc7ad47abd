import Mathlib.Data.Fintype.EquivFin
import SecondChance.Proofs.System.SecondChances
import SecondChance.Proofs.System.PinReturns

/-!
When a pool is large enough.

A fetch is refused for want of a frame only if somebody has the page in every frame. A pin belongs
to a handle or to the load that will fill one, and the fetch that is refused has neither. So if each
of as many borrowers as there are frames has at most one page, or is about to get one, then there is
always a frame that can be used sooner or later, and nobody is refused.
-/

namespace SecondChance

def Move.IsDetach : Move → Prop
  | .detach _ => True
  | _ => False

namespace System

variable {s : System} {k k' : HandleNo} {i i' : FrameNo}

/-- Somebody has the handle, or an operation in progress is going to fill it. -/
def Engaged (s : System) (k : HandleNo) : Prop :=
  (∃ x, s.handles.find? k = some x) ∨ ∃ t task, s.tasks.find? t = some task ∧ task.filling? = some k

/-- The handle has the page in a frame, or a load is bringing it the page. -/
inductive Occupies (s : System) (k : HandleNo) (i : FrameNo) : Prop
  | lent {x : Handle} (hk : s.handles.find? k = some x) (hi : x.stay.frame = i)
  | loading {t : TaskId} {file : FileNo} {page : PageNo} {w : Option Stay} {stay : Stay}
      (ht : s.tasks.find? t = some (.fetch file page k w (.move ⟨.load, stay⟩)))
      (hi : stay.frame = i)

theorem Occupies.engaged (h : s.Occupies k i) : s.Engaged k := by
  cases h with
  | lent hk => exact .inl ⟨_, hk⟩
  | loading ht => exact .inr ⟨_, _, ht, rfl⟩

theorem Occupies.frame_eq (ho : s.Orderly) (h : s.Occupies k i) (h' : s.Occupies k i') : i = i' := by
  cases h with
  | lent hk hi =>
    cases h' with
    | lent hk' hi' =>
      obtain rfl := Option.some.inj (hk.symm.trans hk')
      exact hi.symm.trans hi'
    | loading ht' => exact nomatch hk.symm.trans (ho.unfilled ht' rfl)
  | loading ht hi =>
    cases h' with
    | lent hk' => exact nomatch hk'.symm.trans (ho.unfilled ht rfl)
    | loading ht' hi' =>
      obtain rfl := ho.filling_inj ht ht' rfl rfl
      obtain ⟨-, -, -, -, hst⟩ := Task.fetch.inj (Option.some.inj (ht.symm.trans ht'))
      obtain ⟨-, rfl⟩ := Transfer.mk.inj (Stage.move.inj hst)
      exact hi.symm.trans hi'

theorem not_occupies_of_look (ho : s.Orderly) {t : TaskId} {file : FileNo} {page : PageNo}
    {w : Option Stay} {look : Option Ticket}
    (ht : s.tasks.find? t = some (.fetch file page k w (.look look))) : ¬ s.Occupies k i := by
  intro h
  cases h with
  | lent hk => exact nomatch hk.symm.trans (ho.unfilled ht rfl)
  | loading ht' =>
    obtain rfl := ho.filling_inj ht ht' rfl rfl
    exact nomatch ht.symm.trans ht'

theorem Orderly.fetch_of_load (ho : s.Orderly) {t : TaskId} {stay : Stay}
    (hx : s.transferOf t = some ⟨.load, stay⟩) : ∃ file page k w,
      s.tasks.find? t = some (.fetch file page k w (.move ⟨.load, stay⟩)) := by
  obtain ⟨task, ht, hx⟩ := Option.bind_eq_some_iff.1 hx
  have proper := ho.proper ht
  cases task with
  | fetch file page k w stage =>
    cases stage with
    | look => cases hx
    | move x =>
      obtain rfl := Option.some.inj hx
      exact ⟨file, page, k, w, ht⟩
  | flushFile _ _ _ stage | flushAll _ _ stage =>
    cases stage with
    | look => cases hx
    | move x =>
      obtain rfl := Option.some.inj hx
      cases proper
  | _ => cases hx

/-- Somebody has every pinned page, if no handle has been detached. -/
theorem exists_occupies {ks : List Mark} (hs : s.Regular)
    (ha : s.pool.ledger.Accounted (s.claims ks) (lostIn ks)) (hks : ∀ x, .detached x ∉ ks)
    (hp : s.pool.ledger.Pinned i) : ∃ k, s.Occupies k i := by
  obtain ⟨o, ho, hp⟩ := hp
  have pins := ha.pins ho
  have kept : ks.countP (·.detaches i (s.pool.ledger.generation i)) = 0 := by
    refine List.countP_eq_zero.2 fun x hx hd => ?_
    cases x with
    | detached stay => exact hks stay hx
    | _ => cases hd
  rw [claims, kept] at pins
  by_cases hio : o.io = .busy .load
  · obtain ⟨t, hx⟩ := hs.escorted.carried ho hio
    obtain ⟨file, page, k, w, ht⟩ := hs.orderly.fetch_of_load hx
    exact ⟨k, .loading ht rfl⟩
  · rw [Occupant.loads_eq_zero hio] at pins
    obtain ⟨k, x, hk, hi⟩ := s.handles.exists_of_tally_ne_zero
      (fun x => x.stay.isAt i (s.pool.ledger.generation i)) (by omega)
    exact ⟨k, .lent hk (Stay.isAt_iff.1 hi).1⟩

/-- A fetch that is refused for want of a frame has found every frame pinned. -/
theorem pinned_of_exhausted (hs : s.Regular) {m : Move} (possible : s.Permits m)
    (kind : ¬ m.IsUnpin) {n : Nat} (he : s.refusal? m = some (.exhausted n)) :
    ∃ t fault file page k w look, m = .resume t fault ∧
      s.tasks.find? t = some (.fetch file page k w (.look look)) ∧
      ∀ i < s.pool.ledger.size, s.pool.ledger.Pinned i := by
  cases refuses_of_refusal? hs possible he with
  | @exhausted t fault file page k w look _ ht hr =>
    refine ⟨t, fault, file, page, k, w, look, rfl, ht, ?_⟩
    obtain ⟨l, r, ha⟩ : ∃ l r, s.pool.ledger.acquire s.labels file page w = (l, r) := ⟨_, _, rfl⟩
    obtain rfl : r = .error (.exhausted n) := by rwa [ha] at hr
    have seeks := Ledger.acquire_seeks hs.consistent.hand_lt ha
    generalize s.pool.ledger.acquireVisits s.labels file page w = visits at seeks
    cases seeks with
    | exhausted tour pinned => exact pinned
  | giveBack _ hh hr => cases Ledger.unpinStay_cases hr
  | enter _ ht hl => cases Ledger.stillLoading_eq_error hl
  | unpin => exact (kind trivial).elim

end System

/-- Each of `n` borrowers has at most one page, or runs one operation that is to get one. -/
def System.SharedBy (s : System) (n : Nat) : Prop :=
  ∃ who : HandleNo → Fin n, ∀ k k', s.Engaged k → s.Engaged k' → who k = who k' → k = k'

theorem History.exists_of_mem_marks {h : History} {x : Mark} (hx : x ∈ h.marks) :
    ∃ y ∈ h, x ∈ y.1.marks y.2 := by
  induction h with
  | nil => cases hx
  | cons y h ih =>
    rcases List.mem_append.1 hx with hx | hx
    · obtain ⟨z, hz, hm⟩ := ih hx
      exact ⟨z, List.mem_cons_of_mem y hz, hm⟩
    · exact ⟨y, List.mem_cons_self, hx⟩

theorem ReachesShared.allowed_of_mem {allowed : Move → Prop} {s₀ s : System} {h : History}
    (run : ReachesShared allowed s₀ h s) {x : System × Move} (hx : x ∈ h) : allowed x.2 := by
  induction run with
  | start => cases hx
  | move _ _ kind ih =>
    rcases List.mem_cons.1 hx with rfl | hx
    · exact kind
    · exact ih hx
  | others _ _ ih => exact ih hx

/-- If the borrowers of a pool are as many as its frames, and each of them has at most one page or
is about to get one, then nobody is ever refused for want of a frame, whatever else is going on in
the pool. -/
theorem capacity_suffices {n : Nat} (hn : 0 < n) {c : Catalog} (hd : c.Distinct) {h : History}
    {s : System} (run : ReachesShared (fun m => ¬ m.IsUnpin ∧ ¬ m.IsDetach) (.new n c) h s)
    (shared : s.SharedBy n) {m : Move} (possible : s.Permits m) (kind : ¬ m.IsUnpin) (frames : Nat) :
    s.refusal? m ≠ some (.exhausted frames) := by
  intro he
  have hs := run.regular hn
  have size : s.pool.ledger.size = n := (run.watched hn).size
  obtain ⟨t, fault, file, page, k₀, w, look, -, ht, pinned⟩ :=
    System.pinned_of_exhausted hs possible kind he
  have balanced := run.balanced hn hd (.of_no_unpin fun _ hx => (run.allowed_of_mem hx).1)
  have kept (x : Stay) : .detached x ∉ h.marks := by
    intro hx
    obtain ⟨y, hy, hm⟩ := History.exists_of_mem_marks hx
    obtain ⟨k, hk⟩ := System.tells_of_mem hm
    exact (run.allowed_of_mem hy).2 (hk ▸ trivial)
  -- A handle for every frame, none of them the one that the fetch is to fill.
  have lent (i : Fin n) : ∃ k, s.Occupies k i :=
    System.exists_occupies hs balanced.accounted kept (pinned i (size ▸ i.2))
  choose holder occupies using lent
  obtain ⟨who, one⟩ := shared
  have inj : Function.Injective fun i => who (holder i) := by
    intro i j hij
    have same := one _ _ (occupies i).engaged (occupies j).engaged hij
    have hj := occupies j
    rw [← same] at hj
    exact Fin.ext ((occupies i).frame_eq hs.orderly hj)
  obtain ⟨i, hi⟩ := Finite.surjective_of_injective inj (who k₀)
  have hk := one _ _ (occupies i).engaged (.inr ⟨t, _, ht, rfl⟩) hi
  exact System.not_occupies_of_look hs.orderly ht (hk ▸ occupies i)

/-- The pool has one frame and one borrower, who is about to get a page while another is being
written back by a flush: there is something to wait for. -/
def smallBusy : List Move :=
  [.begin 0 (.allocate 0 0), .resume 0 none, .resume 0 none, .resume 0 none, .markDirty 0,
    .release 0, .begin 1 .flushAll, .resume 1 none, .begin 2 (.fetch 0 1 1)]

theorem capacity_suffices_small : ∃ h s, Reaches (fun m => ¬ m.IsUnpin ∧ ¬ m.IsDetach) .small h s ∧
    s.SharedBy 1 ∧ s.Permits (.resume 2 none) ∧
    ∀ frames, s.refusal? (.resume 2 none) ≠ some (.exhausted frames) := by
  have run : Reaches (fun m => ¬ m.IsUnpin ∧ ¬ m.IsDetach) .small (System.small.play smallBusy).1
      (System.small.play smallBusy).2 := by
    refine .play ⟨⟨rfl, Nat.zero_lt_one, rfl, nofun⟩, rfl, rfl, rfl, ⟨⟨_, rfl⟩, nofun⟩,
      ⟨⟨_, rfl⟩, nofun⟩, ⟨rfl, trivial⟩, rfl, ⟨rfl, Nat.zero_lt_one, rfl, by decide⟩, trivial⟩ ?_
    simp [smallBusy, Move.IsUnpin, Move.IsDetach]
  have possible : (System.small.play smallBusy).2.Permits (.resume 2 none) := rfl
  have shared : (System.small.play smallBusy).2.SharedBy 1 := by
    have filling : ∀ e ∈ (System.small.play smallBusy).2.tasks.entries,
        e.2.filling?.all (· = 1) = true := by decide
    have one {k : HandleNo} (hk : (System.small.play smallBusy).2.Engaged k) : k = 1 := by
      rcases hk with ⟨x, hx⟩ | ⟨t, task, ht, hf⟩
      · cases hx
      · have he := filling _ ((Table.mem_entries_iff ..).2 ht)
        rw [hf] at he
        simpa using he
    exact ⟨fun _ => 0, fun _ _ hk hk' _ => (one hk).trans (one hk').symm⟩
  exact ⟨_, _, run, shared, possible,
    capacity_suffices Nat.zero_lt_one distinct_small run.shared shared possible id⟩

end SecondChance
