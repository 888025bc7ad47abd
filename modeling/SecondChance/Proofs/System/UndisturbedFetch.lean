import SecondChance.Proofs.Ledger.Choice
import SecondChance.Proofs.System.Durability
import SecondChance.Proofs.System.Undisturbed

/-!
What a fetch does that nobody disturbs.

A resident page is pinned once more, and that is all. Otherwise the hand stops at a frame, or goes
once around because everything is pinned. A dirty page is written first, and stays where it is if
that fails. Then the frame is emptied and the page that was asked for is read into it; if that
fails, the frame remains empty.
-/

namespace SecondChance

namespace Ledger

variable {labels : Labels} {l l' m : Ledger} {us : List FrameNo} {v : FrameNo} {o : Occupant}
  {here : Option Occupant} {f : FileNo} {p : PageNo}

/-! ### Where the hand stops -/

/-- The frame that the hand takes, with the frames whose pages are spared on the way: the first open
frame, or the first one with an available page after all pages have been spared once. -/
inductive Picks (l : Ledger) : List FrameNo → FrameNo → Prop
  | first {v : FrameNo} (found : l.order.find? l.isOpen = some v) :
      Picks l (l.order.takeWhile (· ≠ v)) v
  | second {v : FrameNo} (closed : l.order.find? l.isOpen = none)
      (found : l.order.find? l.isAvailable = some v) : Picks l l.order v

/-- The hand has stopped at frame `v`, where `here` is now. The pages in the other frames are there
as before, and those in the frames `us` have lost their reference bits. -/
structure StopsAt (l : Ledger) (us : List FrameNo) (v : FrameNo) (here : Option Occupant)
    (l' : Ledger) : Prop where
  hand : l'.hand = v
  size : l'.size = l.size
  occupant (j : FrameNo) : l'.occupant? j =
    if j = v then here else if j ∈ us then (l.occupant? j).map (·.unreferenced) else l.occupant? j

theorem StopsAt.replace (h : l.StopsAt us v here m) {here' : Option Occupant}
    (size : l'.size = m.size) (hand : l'.hand = m.hand)
    (occupant : ∀ j, l'.occupant? j = if v = j then here' else m.occupant? j) :
    l.StopsAt us v here' l' where
  hand := hand.trans h.hand
  size := size.trans h.size
  occupant j := by
    rw [occupant, h.occupant]
    by_cases hj : j = v
    · rw [if_pos hj.symm, if_pos hj]
    · rw [if_neg (Ne.symm hj), if_neg hj, if_neg hj]

theorem StopsAt.here_self (h : l.StopsAt us v here l') : l'.occupant? v = here :=
  (h.occupant v).trans (if_pos rfl)

/-- If nothing is being moved, a sweep picks a frame or finds everything pinned. -/
theorem sweep_picks (agree : l.Consistent labels)
    (idle : ∀ i o, l.occupant? i = some o → o.io = .idle) :
    (∃ us v, l.Picks us v ∧ l.Chooses labels us v (l.sweep labels).1 (l.sweep labels).2) ∨
      ((∀ i < l.size, l.Pinned i) ∧ l.Spends (l.sweep labels).1 ∧
        (l.sweep labels).2 = .error (.exhausted l.size)) := by
  cases opened : l.order.find? l.isOpen with
  | some v => exact .inl ⟨_, v, .first opened, (sweep_of_isOpen labels agree.hand_lt opened).2⟩
  | none =>
    cases available : l.order.find? l.isAvailable with
    | some v =>
      exact .inl ⟨_, v, .second opened available,
        (sweep_of_isAvailable labels agree.hand_lt opened available).2⟩
    | none =>
      have pinned (i : FrameNo) (hi : i < l.size) : l.Pinned i := by
        have hi := (mem_order agree.hand_lt).2 hi
        have closed : l.isOpen i = false := by simpa using List.find?_eq_none.1 opened i hi
        have shut : l.isAvailable i = false := by simpa using List.find?_eq_none.1 available i hi
        obtain ⟨o, ho, -⟩ := exists_of_not_isOpen closed
        refine ⟨o, ho, fun hp => ?_⟩
        have standing := Occupant.standing_eq_available.2 ⟨hp, idle i o ho⟩
        rw [isAvailable_of_occupant? ho, standing] at shut
        cases shut
      obtain ⟨-, spends, result⟩ := sweep_of_not_isAvailable labels agree.hand_lt opened available
      refine .inr ⟨pinned, spends, ?_⟩
      rw [result]
      cases unpinned : l.order.find? l.isUnpinned with
      | none => rfl
      | some i =>
        obtain ⟨o, ho, hp⟩ := pinned i
          ((mem_order agree.hand_lt).1 (List.mem_of_find?_eq_some unpinned))
        have := List.find?_some unpinned
        rw [isUnpinned_of_occupant? ho] at this
        exact (hp (of_decide_eq_true this)).elim

/-- What looking for a frame comes to for a page that is not resident, if nothing is being moved. -/
inductive Seats (labels : Labels) (l : Ledger) (f : FileNo) (p : PageNo) :
    Ledger → Except PoolError Acquisition → Prop
  | exhausted {l' : Ledger} (pinned : ∀ i < l.size, l.Pinned i) (spends : l.Spends l') :
      Seats labels l f p l' (.error (.exhausted l.size))
  | claimed {us : List FrameNo} {v : FrameNo} {o : Occupant} {m : Ledger} (picks : l.Picks us v)
      (occupant : l.occupant? v = some o) (dirty : o.dirty = true)
      (stops : l.StopsAt us v (some o.unreferenced) m) (table : m.table = l.table)
      (generation : ∀ j, m.generation j = l.generation j) :
      Seats labels l f p (m.setOccupant v o.unreferenced.claimed)
        (.ok (.writeBack (m.stayOf v o.unreferenced)))
  | placed {us : List FrameNo} {v : FrameNo} {m : Ledger} (left : Option Departure)
      (picks : l.Picks us v) (clean : ∀ o, l.occupant? v = some o → o.dirty = false)
      (stops : l.StopsAt us v none m)
      (table : ∀ k, m.table.find? k = (l.table.find? k).filter (· ≠ v))
      (generation : ∀ j, m.generation j = l.generation j) (hv : v < m.size) :
      Seats labels l f p (m.install v (labels.key f p) f p)
        (.ok (.load ⟨f, p, v, m.generation v + 1⟩ left))

theorem Consistent.find?_filter_of_empty (agree : l.Consistent labels) (ho : l.occupant? v = none)
    (k : PageKey) : (l.table.find? k).filter (· ≠ v) = l.table.find? k := by
  cases hi : l.table.find? k with
  | none => rfl
  | some i =>
    have other : i ≠ v := by
      rintro rfl
      exact agree.occupant?_ne_none hi ho
    rw [Option.filter_some, if_pos (by simpa using other)]

theorem Picks.lt_size (agree : l.Consistent labels) (picks : l.Picks us v) : v < l.size := by
  cases picks with
  | first found | second _ found =>
    exact (mem_order agree.hand_lt).1 (List.mem_of_find?_eq_some found)

theorem Picks.standing (picks : l.Picks us v) (ho : l.occupant? v = some o) :
    o.standing = .available := by
  cases picks with
  | first found =>
    have evictable := Occupant.isEvictable_iff.1 (isOpen_iff.1 (List.find?_some found) o ho)
    exact Occupant.standing_eq_available.2 ⟨evictable.1, evictable.2.1⟩
  | second _ found =>
    have available := List.find?_some found
    rw [isAvailable_of_occupant? ho] at available
    exact of_decide_eq_true available

theorem reclaim?_of_evictable {w : Stay} (hat : (l.frame w.frame).occupantAt w.generation = some o)
    (evictable : o.isEvictable = true) (clean : o.dirty = false) :
    l.reclaim? labels w = some (l.vacate w.frame (o.key labels), o.page) := by
  have leaves : (o.isEvictable && !o.dirty) = true := by rw [evictable, clean]; rfl
  simp only [reclaim?, hat, leaves, if_true]

theorem acquireBySweep_quiet (agree : l.Consistent labels)
    (idle : ∀ i o, l.occupant? i = some o → o.io = .idle) (f : FileNo) (p : PageNo) :
    l.Seats labels f p (l.acquireBySweep labels f p).1 (l.acquireBySweep labels f p).2 := by
  rcases sweep_picks agree idle with ⟨us, v, picks, chooses⟩ | ⟨pinned, spends, result⟩
  · obtain ⟨l', r, hs⟩ : ∃ l' r, l.sweep labels = (l', r) := ⟨_, _, rfl⟩
    rw [hs] at chooses
    have hv : v < l'.size := chooses.size ▸ picks.lt_size agree
    have stops {here : Option Occupant} (left : l'.occupant? v = here) :
        l.StopsAt us v here l' := by
      refine ⟨chooses.hand, chooses.size, fun j => ?_⟩
      by_cases hj : j = v
      · rw [if_pos hj, hj, left]
      · rw [if_neg hj, chooses.others hj]
    obtain ⟨victim, rfl, taken⟩ := chooses.taken
    cases taken with
    | empty ho left table =>
      simp only [acquireBySweep, hs, place_eq hv]
      refine .placed _ picks (fun o ho' => ?_) (stops left) (fun k => ?_) chooses.generation hv
      · cases ho.symm.trans ho'
      · rw [table, agree.find?_filter_of_empty ho]
    | clean ho clean left table =>
      simp only [acquireBySweep, hs, place_eq hv]
      refine .placed _ picks (fun o ho' => ?_) (stops left) (fun k => ?_) chooses.generation hv
      · obtain rfl := Option.some.inj (ho.symm.trans ho')
        exact clean
      · rw [table, agree.find?_erase ho]
    | @dirty o ho dirty left table =>
      -- The ledger before the page was claimed.
      obtain ⟨m, hm⟩ : ∃ m, l'.setOccupant v o.unreferenced = m := ⟨_, rfl⟩
      have back : m.setOccupant v o.unreferenced.claimed = l' := by
        rw [← hm, setOccupant_setOccupant hv]
        exact setOccupant_self left
      have stay : m.stayOf v o.unreferenced = ⟨o.file, o.page, v, l.generation v⟩ := by
        have generation : m.generation v = l.generation v := by
          rw [← hm, generation_setOccupant, chooses.generation]
        exact congrArg (Stay.mk o.file o.page v) generation
      have seats : l.Seats labels f p (m.setOccupant v o.unreferenced.claimed)
          (.ok (.writeBack (m.stayOf v o.unreferenced))) := by
        refine .claimed picks ho dirty ?_ ?_ fun j => ?_
        · refine (stops left).replace ?_ ?_ fun j => ?_
          · rw [← hm, size_setOccupant]
          · rw [← hm, hand_setOccupant]
          · rw [← hm, occupant?_setOccupant hv]
        · rw [← hm, table_setOccupant, table]
        · rw [← hm, generation_setOccupant, chooses.generation]
      rw [back, stay] at seats
      simp only [acquireBySweep, hs]
      exact seats
  · obtain ⟨l', r, hs⟩ : ∃ l' r, l.sweep labels = (l', r) := ⟨_, _, rfl⟩
    rw [hs] at spends result
    simp only [acquireBySweep, hs]
    dsimp only at result
    subst result
    exact .exhausted pinned spends

end Ledger

theorem Pool.buffer_of_setBuffer {pool pool' : Pool} {v : FrameNo} {q : Page}
    (h : pool'.buffers = (pool.setBuffer v q).buffers) (hv : v < pool.buffers.size) (j : FrameNo) :
    pool'.buffer j = if j = v then q else pool.buffer j := by
  rw [Pool.buffer, h, ← Pool.buffer, Pool.buffer_setBuffer]
  by_cases hj : j = v
  · rw [if_pos ⟨hj.symm, hv⟩, if_pos hj]
  · rw [if_neg fun both => hj both.1.symm, if_neg hj]

namespace System

variable {s₀ s : System} {t : TaskId} {task : Task} {fault : Option Fault} {log : List Made}
  {f : FileNo} {p : PageNo} {k : HandleNo}

/-! ### Reading a page -/

/-- The page of a frame is being read, and apart from that the ledger is `l`. -/
structure Awaited (l : Ledger) (v : FrameNo) (f : FileNo) (p : PageNo) (x : Transfer) (s : System) :
    Prop where
  inside : v < l.size
  transfer : x = ⟨.load, ⟨f, p, v, l.generation v + 1⟩⟩
  ledger : s.pool.ledger = l.install v (s.labels.key f p) f p

/-- What comes of reading a page into a frame: it is there now, or the frame is empty and its
content zeros. -/
inductive Loads (l : Ledger) (v : FrameNo) (f : FileNo) (p : PageNo) (s : System) :
    List Made → System × List Event × Except StoreError Unit → Prop
  | loaded {s' : System} {events : List Event} {q : Page} (labels : s'.labels = s.labels)
      (handles : s'.handles = s.handles) (pool : s'.pool.buffers = (s.pool.setBuffer v q).buffers)
      (ledger : s'.pool.ledger = (l.install v (s.labels.key f p) f p).setOccupant v
        { Occupant.arriving f p with io := .idle }) :
      Loads l v f p s [.read f p (s.pool.buffer v) (.content q)] (s', events, .ok ())
  | refused {s' : System} {events : List Event} {e : StoreError} (labels : s'.labels = s.labels)
      (handles : s'.handles = s.handles)
      (pool : s'.pool.buffers = (s.pool.setBuffer v .zero).buffers)
      (ledger : s'.pool.ledger =
        (l.install v (s.labels.key f p) f p).vacate v (s.labels.key f p)) :
      Loads l v f p s [.read f p (s.pool.buffer v) (.refused e)] (s', events, .error e)

theorem Awaited.loads {l : Ledger} {v : FrameNo} {x : Transfer} {w : Option Stay}
    (h : s.Awaited l v f p x) (t : TaskId) (fault : Option Fault) :
    Loads l v f p s (s.made fault (.fetch f p k w (.move x))) (s.finishTransfer t x fault) := by
  obtain ⟨hv, rfl, ledger⟩ := h
  have call : s.callOf (.fetch f p k w (.move ⟨.load, ⟨f, p, v, l.generation v + 1⟩⟩)) =
      some (f, .read p (.page (s.pool.buffer v))) := rfl
  have hat : (s.pool.ledger.frame v).occupantAt (l.generation v + 1) = some (.arriving f p) := by
    rw [ledger, Ledger.occupantAt_frame, Ledger.generation_install hv, if_pos rfl,
      Ledger.occupant?_install hv, if_pos rfl]
    exact ⟨rfl, rfl⟩
  have arrived (labels : Labels) :
      s.pool.ledger.settle labels ⟨.load, ⟨f, p, v, l.generation v + 1⟩⟩ true =
        s.pool.ledger.setOccupant v { Occupant.arriving f p with io := .idle } :=
    Ledger.settle_succeeded hat rfl
  have lost (labels : Labels) :
      s.pool.ledger.settle labels ⟨.load, ⟨f, p, v, l.generation v + 1⟩⟩ false =
        s.pool.ledger.vacate v (labels.key f p) :=
    Ledger.settle_load_failed (o := .arriving f p) hat rfl
  have same := Catalog.registry_read s.files fault f p (.page (s.pool.buffer v))
  simp only [made, call, Catalog.callUnder, finishTransfer, finishLoad, Option.toList_some,
    List.map_cons, List.map_nil]
  generalize s.files.read fault f p _ = r at same ⊢
  obtain ⟨files, r⟩ := r
  have labels : files.labels = s.labels := Catalog.labels_of_registry same
  cases r with
  | ok q =>
    refine .loaded labels rfl rfl ?_
    rw [← ledger]
    exact arrived files.labels
  | error e =>
    refine .refused labels rfl rfl ?_
    rw [← ledger, ← labels]
    exact lost files.labels

/-! ### From asking to having -/

/-- A page is in none of the frames. -/
def Lacks (s : System) (f : FileNo) (p : PageNo) : Prop :=
  ∀ i o, s.pool.ledger.occupant? i = some o → ¬ (o.file = f ∧ o.page = p)

/-- The page of a frame has been written, if it was dirty. -/
def evicting (s : System) (v : FrameNo) : List Made :=
  ((s.pool.ledger.occupant? v).filter (·.dirty)).toList.map fun o =>
    .write o (s.pool.buffer v) .done

/-- How a fetch can end that began in `s₀`. -/
inductive Supplied (s₀ : System) (f : FileNo) (p : PageNo) (k : HandleNo) :
    Result → List Made → System → Prop
  | hit {i : FrameNo} {o : Occupant} {s : System} (occupant : s₀.pool.ledger.occupant? i = some o)
      (file : o.file = f) (page : o.page = p) (labels : s.labels = s₀.labels)
      (handles : s.handles = s₀.handles.insert k ⟨s₀.pool.ledger.stayOf i o, false⟩)
      (buffers : s.pool.buffers = s₀.pool.buffers)
      (ledger : s.pool.ledger = s₀.pool.ledger.setOccupant i o.pin) :
      Supplied s₀ f p k (.lent p i) [] s
  | exhausted {s : System} (lacks : s₀.Lacks f p)
      (pinned : ∀ i < s₀.pool.size, s₀.pool.ledger.Pinned i) (same : s₀.Stays s)
      (ledger : s₀.pool.ledger.Spends s.pool.ledger) :
      Supplied s₀ f p k (.refused (.exhausted s₀.pool.size)) [] s
  -- The page in the way could not be written.
  | unwritten {us : List FrameNo} {v : FrameNo} {o : Occupant} {e : StoreError} {s : System}
      (lacks : s₀.Lacks f p) (picks : s₀.pool.ledger.Picks us v)
      (occupant : s₀.pool.ledger.occupant? v = some o) (dirty : o.dirty = true)
      (idle : o.io = .idle) (same : s₀.Stays s)
      (ledger : s₀.pool.ledger.StopsAt us v (some o.unreferenced) s.pool.ledger)
      (table : s.pool.ledger.table = s₀.pool.ledger.table)
      (generation : ∀ j, s.pool.ledger.generation j = s₀.pool.ledger.generation j)
      (lacks' : s.Lacks f p) :
      Supplied s₀ f p k (.refused (.store e)) [.write o (s₀.pool.buffer v) (.refused e)] s
  -- The page that was asked for could not be read.
  | unread {us : List FrameNo} {v : FrameNo} {e : StoreError} {s : System} (lacks : s₀.Lacks f p)
      (picks : s₀.pool.ledger.Picks us v) (labels : s.labels = s₀.labels)
      (handles : s.handles = s₀.handles)
      (buffer : ∀ j, s.pool.buffer j = if j = v then .zero else s₀.pool.buffer j)
      (ledger : s₀.pool.ledger.StopsAt us v none s.pool.ledger)
      (table : ∀ x, s.pool.ledger.table.find? x =
        (s₀.pool.ledger.table.find? x).filter (· ≠ v))
      (generation : ∀ j, s.pool.ledger.generation j =
        s₀.pool.ledger.generation j + if j = v then 1 else 0)
      (lacks' : s.Lacks f p) :
      Supplied s₀ f p k (.refused (.store e))
        (s₀.evicting v ++ [.read f p (s₀.pool.buffer v) (.refused e)]) s
  | loaded {us : List FrameNo} {v : FrameNo} {q : Page} {s : System} (lacks : s₀.Lacks f p)
      (picks : s₀.pool.ledger.Picks us v) (labels : s.labels = s₀.labels)
      (handles : s.handles =
        s₀.handles.insert k ⟨⟨f, p, v, s₀.pool.ledger.generation v + 1⟩, false⟩)
      (buffer : ∀ j, s.pool.buffer j = if j = v then q else s₀.pool.buffer j)
      (ledger : s₀.pool.ledger.StopsAt us v (some ⟨f, p, 1, true, false, .idle⟩) s.pool.ledger)
      (table : ∀ x, s.pool.ledger.table.find? x = if s₀.labels.key f p = x then some v
        else (s₀.pool.ledger.table.find? x).filter (· ≠ v))
      (generation : ∀ j, s.pool.ledger.generation j =
        s₀.pool.ledger.generation j + if j = v then 1 else 0) :
      Supplied s₀ f p k (.lent p v)
        (s₀.evicting v ++ [.read f p (s₀.pool.buffer v) (.content q)]) s

/-- The sweep has picked frame `v`, which is empty now and no longer in the table; nothing else has
changed since `s₀` but the hand and the reference bits of the pages in the frames `us`. -/
structure Cleared (s₀ : System) (us : List FrameNo) (v : FrameNo) (m : Ledger) : Prop where
  picks : s₀.pool.ledger.Picks us v
  inside : v < m.size
  stops : s₀.pool.ledger.StopsAt us v none m
  table (x : PageKey) : m.table.find? x = (s₀.pool.ledger.table.find? x).filter (· ≠ v)
  generation (j : FrameNo) : m.generation j = s₀.pool.ledger.generation j

/-- The sweep has picked frame `v`, which holds the dirty page `o`; nothing has changed since `s₀`
but the hand and the reference bits of this page and those in the frames `us`. -/
structure Stopped (s₀ : System) (us : List FrameNo) (v : FrameNo) (o : Occupant) (m : Ledger) :
    Prop where
  picks : s₀.pool.ledger.Picks us v
  occupant : s₀.pool.ledger.occupant? v = some o
  dirty : o.dirty = true
  stops : s₀.pool.ledger.StopsAt us v (some o.unreferenced) m
  table : m.table = s₀.pool.ledger.table
  generation (j : FrameNo) : m.generation j = s₀.pool.ledger.generation j

section Cleared

variable {us : List FrameNo} {v : FrameNo} {m : Ledger} (h : s₀.Cleared us v m) (x : PageKey)
include h

theorem Cleared.filled (f : FileNo) (p : PageNo) :
    let l := (m.install v x f p).setOccupant v { Occupant.arriving f p with io := .idle }
    s₀.pool.ledger.StopsAt us v (some ⟨f, p, 1, true, false, .idle⟩) l ∧
      (∀ y, l.table.find? y = if x = y then some v
        else (s₀.pool.ledger.table.find? y).filter (· ≠ v)) ∧
      ∀ j, l.generation j = s₀.pool.ledger.generation j + if j = v then 1 else 0 := by
  intro l
  have hv : v < (m.install v x f p).size := by rw [Ledger.size_install]; exact h.inside
  refine ⟨h.stops.replace ?_ rfl fun j => ?_, fun y => ?_, fun j => ?_⟩
  · rw [Ledger.size_setOccupant, Ledger.size_install]
  · rw [Ledger.occupant?_setOccupant hv, Ledger.occupant?_install h.inside]
    split <;> rfl
  · rw [← h.table]
    exact Table.find?_insert ..
  · rw [Ledger.generation_setOccupant, Ledger.generation_install h.inside, h.generation]
    simp only [eq_comm]

theorem Cleared.lost (missing : s₀.pool.ledger.table.find? x = none) (f : FileNo) (p : PageNo) :
    let l := (m.install v x f p).vacate v x
    s₀.pool.ledger.StopsAt us v none l ∧
      (∀ y, l.table.find? y = (s₀.pool.ledger.table.find? y).filter (· ≠ v)) ∧
      ∀ j, l.generation j = s₀.pool.ledger.generation j + if j = v then 1 else 0 := by
  intro l
  have hv : v < (m.install v x f p).size := by rw [Ledger.size_install]; exact h.inside
  refine ⟨h.stops.replace ?_ rfl fun j => ?_, fun y => ?_, fun j => ?_⟩
  · rw [Ledger.size_vacate, Ledger.size_install]
  · rw [Ledger.occupant?_vacate hv, Ledger.occupant?_install h.inside]
    split <;> rfl
  · rw [Ledger.table_vacate, Ledger.table_install, Table.find?_erase, Table.find?_insert, ← h.table]
    split
    · next hx =>
      rw [h.table, ← hx, missing]
      rfl
    · rfl
  · rw [Ledger.generation_vacate, Ledger.generation_install h.inside, h.generation]
    simp only [eq_comm]

end Cleared

/-- How far a fetch has come that began in `s₀`. -/
inductive Supplying (s₀ : System) (f : FileNo) (p : PageNo) (k : HandleNo) :
    Task → List Made → System → Prop
  | look {look : Option Ticket} {s : System} (same : s₀.Stays s)
      (ledger : s.pool.ledger = s₀.pool.ledger) :
      Supplying s₀ f p k (.fetch f p k none (.look look)) [] s
  | write {us : List FrameNo} {v : FrameNo} {o : Occupant} {m : Ledger} {x : Transfer} {s : System}
      (lacks : s₀.Lacks f p) (same : s₀.Stays s) (stopped : s₀.Stopped us v o m)
      (claimed : s.Claimed m v o.unreferenced x) :
      Supplying s₀ f p k (.fetch f p k none (.move x)) [] s
  -- The page in the way has been written, and its frame is looked at once more.
  | again {us : List FrameNo} {v : FrameNo} {o : Occupant} {m : Ledger} {s : System}
      (lacks : s₀.Lacks f p) (same : s₀.Stays s) (stopped : s₀.Stopped us v o m)
      (ledger : s.pool.ledger = m.setOccupant v o.unreferenced.cleaned) :
      Supplying s₀ f p k (.fetch f p k (some (m.stayOf v o.unreferenced)) (.look none))
        (s₀.evicting v) s
  | read {us : List FrameNo} {v : FrameNo} {m : Ledger} {x : Transfer} {s : System}
      (lacks : s₀.Lacks f p) (same : s₀.Stays s) (cleared : s₀.Cleared us v m)
      (awaited : s.Awaited m v f p x) :
      Supplying s₀ f p k (.fetch f p k none (.move x)) (s₀.evicting v) s

theorem evicting_of_dirty {v : FrameNo} {o : Occupant} (ho : s.pool.ledger.occupant? v = some o)
    (dirty : o.dirty = true) : s.evicting v = [.write o (s.pool.buffer v) .done] := by
  rw [evicting, ho, Option.filter_some, if_pos dirty]
  rfl

theorem evicting_of_clean {v : FrameNo}
    (clean : ∀ o, s.pool.ledger.occupant? v = some o → o.dirty = false) : s.evicting v = [] := by
  rw [evicting]
  cases ho : s.pool.ledger.occupant? v with
  | none => rfl
  | some o =>
    rw [Option.filter_some, clean o ho, if_neg Bool.false_ne_true]
    rfl

theorem Lacks.of_stopsAt {us : List FrameNo} {v : FrameNo} {here : Option Occupant} {l : Ledger}
    (h : s₀.Lacks f p) (stops : s₀.pool.ledger.StopsAt us v here l)
    (other : ∀ o, here = some o → ¬ (o.file = f ∧ o.page = p)) (i : FrameNo) (o : Occupant)
    (ho : l.occupant? i = some o) : ¬ (o.file = f ∧ o.page = p) := by
  rw [stops.occupant] at ho
  split at ho
  · exact other o ho
  · split at ho
    · obtain ⟨q, hq, rfl⟩ := Option.map_eq_some_iff.1 ho
      exact h i q hq
    · exact h i o ho

theorem Lacks.find?_eq_none (h : s₀.Lacks f p) (agree : s₀.pool.ledger.Consistent s₀.labels)
    (distinct : s₀.files.Distinct)
    (opened : ∀ i o, s₀.pool.ledger.occupant? i = some o → s₀.hasFile o.file) (hf : s₀.hasFile f) :
    s₀.pool.ledger.table.find? (s₀.labels.key f p) = none := by
  cases hk : s₀.pool.ledger.table.find? (s₀.labels.key f p) with
  | none => rfl
  | some i =>
    obtain ⟨o, ho, key⟩ := agree.occupant?_of_find? hk
    exact (h i o ho (distinct.key_inj (opened i o ho) hf key)).elim

section Fetch

variable (quiet : s₀.Quiescent) (distinct : s₀.files.Distinct)
  (opened : ∀ i o, s₀.pool.ledger.occupant? i = some o → s₀.hasFile o.file) (hf : s₀.hasFile f)
  (sized : s₀.pool.buffers.size = s₀.pool.size)

include quiet distinct opened hf in
theorem supplying_look (same : s₀.Stays s)
    (ledger : s.pool.ledger = s₀.pool.ledger) :
    Leads (Supplying s₀ f p k · []) (Supplied s₀ f p k · [])
      ((s.lookForFetch t f p k none).1.turnTo t (s.lookForFetch t f p k none).2.2)
      (s.lookForFetch t f p k none).2.2 := by
  have agree := quiet.regular.consistent
  have idle (i : FrameNo) (o : Occupant) (ho : s₀.pool.ledger.occupant? i = some o) :
      o.io = .idle :=
    (quiet.alone (t := t)).io_eq_idle (transferOf_eq_none (quiet.idle t)) ho
  cases hk : s₀.pool.ledger.table.find? (s₀.labels.key f p) with
  | some i =>
    obtain ⟨o, ho, key⟩ := agree.occupant?_of_find? hk
    obtain ⟨rfl, rfl⟩ := distinct.key_inj (opened i o ho) hf key
    simp only [lookForFetch, Ledger.acquire, ledger, same.labels, hk, ho]
    have handles : s.handles.insert k ⟨s₀.pool.ledger.stayOf i o, false⟩ =
        s₀.handles.insert k ⟨s₀.pool.ledger.stayOf i o, false⟩ := by rw [same.handles]
    exact .hit ho rfl rfl same.labels handles same.buffers rfl
  | none =>
    have lacks : s₀.Lacks f p := by
      rintro i o ho ⟨rfl, rfl⟩
      cases hk.symm.trans (agree.find?_key ho)
    have seats := Ledger.acquireBySweep_quiet agree idle f p
    simp only [lookForFetch, Ledger.acquire, ledger, same.labels, hk]
    generalize s₀.pool.ledger.acquireBySweep s₀.labels f p = r at seats ⊢
    obtain ⟨l, r⟩ := r
    cases seats with
    | exhausted pinned spends =>
      exact .exhausted lacks pinned (same.trans ⟨rfl, rfl, rfl⟩) spends
    | @claimed us v o m picks ho dirty stops table generation =>
      have rests : o.unreferenced.io = .idle := (idle v o ho : o.io = .idle)
      exact .write lacks (same.trans ⟨rfl, rfl, rfl⟩)
        ⟨picks, ho, dirty, stops, table, generation⟩ ⟨stops.here_self, rests, dirty, rfl, rfl⟩
    | placed left picks clean stops table generation hv =>
      show Supplying s₀ f p k _ [] _
      rw [← evicting_of_clean clean]
      refine .read lacks (same.trans ⟨rfl, rfl, rfl⟩)
        ⟨picks, hv, stops, table, generation⟩ ⟨hv, rfl, ?_⟩
      rw [← same.labels]
      rfl

include quiet distinct opened hf in
theorem supplying_again {us : List FrameNo} {v : FrameNo} {o : Occupant} {m : Ledger}
    (alone : s.Alone t) (lacks : s₀.Lacks f p) (same : s₀.Stays s) (stopped : s₀.Stopped us v o m)
    (ledger : s.pool.ledger = m.setOccupant v o.unreferenced.cleaned) :
    Leads (Supplying s₀ f p k · (s₀.evicting v)) (Supplied s₀ f p k · (s₀.evicting v))
      ((s.lookForFetch t f p k (some (m.stayOf v o.unreferenced))).1.turnTo t
        (s.lookForFetch t f p k (some (m.stayOf v o.unreferenced))).2.2)
      (s.lookForFetch t f p k (some (m.stayOf v o.unreferenced))).2.2 := by
  have here := stopped.stops.here_self
  have hv := Ledger.lt_size_of_occupant? here
  have agree : m.Consistent s₀.labels := by
    have now : s.pool.ledger.occupant? v = some o.unreferenced.cleaned := by
      rw [ledger, Ledger.occupant?_setOccupant hv, if_pos rfl]
    have back := alone.regular.consistent.setOccupant (p := o.unreferenced) now rfl
    rwa [ledger, Ledger.setOccupant_setOccupant hv, Ledger.setOccupant_self here, same.labels]
      at back
  have missing :
      (m.setOccupant v o.unreferenced.cleaned).table.find? (s₀.labels.key f p) = none := by
    rw [Ledger.table_setOccupant, stopped.table]
    exact lacks.find?_eq_none quiet.regular.consistent distinct opened hf
  have hat : ((m.setOccupant v o.unreferenced.cleaned).frame v).occupantAt
      (m.stayOf v o.unreferenced).generation = some o.unreferenced.cleaned := by
    rw [Ledger.occupantAt_frame, Ledger.generation_setOccupant, Ledger.occupant?_setOccupant hv,
      if_pos rfl]
    exact ⟨rfl, rfl⟩
  have available := Occupant.standing_eq_available.1 (stopped.picks.standing stopped.occupant)
  have evictable : o.unreferenced.cleaned.isEvictable = true :=
    Occupant.isEvictable_iff.2 ⟨available.1, available.2, rfl⟩
  have reclaimed : (m.setOccupant v o.unreferenced.cleaned).reclaim? s₀.labels
      (m.stayOf v o.unreferenced) = some (m.vacate v (o.key s₀.labels), o.page) := by
    rw [Ledger.reclaim?_of_evictable hat evictable rfl]
    exact congrArg (fun l => some (l, o.page)) (Ledger.vacate_setOccupant hv (o.key s₀.labels))
  have inside : v < (m.vacate v (o.key s₀.labels)).size := by rwa [Ledger.size_vacate]
  have acquired : s.pool.ledger.acquire s.labels f p (some (m.stayOf v o.unreferenced)) =
      ((m.vacate v (o.key s₀.labels)).install v (s₀.labels.key f p) f p,
        .ok (.load ⟨f, p, v, (m.vacate v (o.key s₀.labels)).generation v + 1⟩
          (some (.written o.page)))) := by
    rw [ledger, same.labels, Ledger.acquire]
    simp only [missing, reclaimed]
    exact Ledger.place_eq inside f p _
  have cleared : s₀.Cleared us v (m.vacate v (o.key s₀.labels)) := by
    refine ⟨stopped.picks, inside, ?_, fun x => ?_, fun j => ?_⟩
    · exact stopped.stops.replace (Ledger.size_vacate ..) rfl (Ledger.occupant?_vacate hv _)
    · rw [Ledger.table_vacate, ← stopped.table]
      exact agree.find?_erase here x
    · rw [Ledger.generation_vacate, stopped.generation]
  simp only [lookForFetch, acquired]
  refine .read lacks (same.trans ⟨rfl, rfl, rfl⟩) cleared ⟨inside, rfl, ?_⟩
  rw [← same.labels]
  rfl

include quiet distinct opened hf sized in
theorem supplying_read {us : List FrameNo} {v : FrameNo} {m : Ledger} {x : Transfer}
    {made : List Made} {r : System × List Event × Except StoreError Unit} (lacks : s₀.Lacks f p)
    (same : s₀.Stays s) (cleared : s₀.Cleared us v m) (awaited : s.Awaited m v f p x)
    (hr : s.finishTransfer t x fault = r) (loads : Loads m v f p s made r) :
    Leads (Supplying s₀ f p k · (s₀.evicting v ++ made))
      (Supplied s₀ f p k · (s₀.evicting v ++ made))
      ((s.moveForFetch t f p k x fault).1.turnTo t (s.moveForFetch t f p k x fault).2.2)
      (s.moveForFetch t f p k x fault).2.2 := by
  have missing := lacks.find?_eq_none quiet.regular.consistent distinct opened hf
  have inside : v < s.pool.buffers.size := by
    rw [same.buffers, sized, Pool.size, ← cleared.stops.size]
    exact cleared.inside
  have buffer {q : Page} {pool : Pool} (h : pool.buffers = (s.pool.setBuffer v q).buffers)
      (j : FrameNo) : pool.buffer j = if j = v then q else s₀.pool.buffer j := by
    rw [← same.buffer]
    exact Pool.buffer_of_setBuffer h inside j
  cases loads with
  | @loaded s' events q labels handles pool ledger =>
    have kind : x.kind = .load := by rw [awaited.transfer]
    have lent : s'.handles.insert k ⟨x.stay, false⟩ =
        s₀.handles.insert k ⟨⟨f, p, v, s₀.pool.ledger.generation v + 1⟩, false⟩ := by
      rw [handles, same.handles, awaited.transfer, cleared.generation]
    rw [same.labels] at ledger
    obtain ⟨stops, table, generation⟩ := cleared.filled (s₀.labels.key f p) f p
    rw [← ledger] at stops table generation
    rw [same.buffer]
    simp only [moveForFetch, hr, kind]
    have frame : x.stay.frame = v := by rw [awaited.transfer]
    have page : x.stay.page = p := by rw [awaited.transfer]
    show Supplied s₀ f p k (.lent x.stay.page x.stay.frame) _ _
    rw [frame, page]
    exact .loaded lacks cleared.picks (labels.trans same.labels) lent (buffer pool) stops table
      generation
  | refused labels handles pool ledger =>
    rw [same.labels] at ledger
    obtain ⟨stops, table, generation⟩ := cleared.lost (s₀.labels.key f p) missing f p
    rw [← ledger] at stops table generation
    rw [same.buffer]
    simp only [moveForFetch, hr]
    exact .unread lacks cleared.picks (labels.trans same.labels) (handles.trans same.handles)
      (buffer pool) stops table generation (lacks.of_stopsAt stops fun _ h => by cases h)

include quiet distinct opened hf sized in
theorem supplying_step (alone : s.Alone t) (h : s₀.Supplying f p k task log s)
    (fault : Option Fault) :
    Leads (Supplying s₀ f p k · (log ++ s.made fault task))
      (Supplied s₀ f p k · (log ++ s.made fault task))
      ((s.advance t fault task).1.turnTo t (s.advance t fault task).2.2)
      (s.advance t fault task).2.2 := by
  cases h with
  | look same ledger =>
    rw [made_of_silent rfl]
    exact supplying_look quiet distinct opened hf same ledger
  | again lacks same stopped ledger =>
    rw [made_of_silent rfl, List.append_nil]
    exact supplying_again quiet distinct opened hf alone lacks same stopped ledger
  | read lacks same cleared awaited =>
    exact supplying_read quiet distinct opened hf sized lacks same cleared awaited rfl
      (awaited.loads t fault)
  | @write us v o m x _ lacks same stopped claimed =>
    have moves : (Task.fetch f p k none (.move x)).transfer? = some x := rfl
    have ends := claimed.writesBack moves t fault
    have kind : x.kind = .writeBack := by rw [claimed.transfer]
    have stay : x.stay = m.stayOf v o.unreferenced := by rw [claimed.transfer]
    simp only [advance, moveForFetch, kind, stay]
    generalize s.made fault _ = made, s.finishTransfer t x fault = r at ends ⊢
    cases ends with
    | @refused s' _ e stays restored =>
      have same' := same.trans stays
      rw [same.buffer]
      show Supplied s₀ f p k _ [.write o (s₀.pool.buffer v) (.refused e)] _
      have still : s₀.Stays (s'.endTask t) := same'.trans ⟨rfl, rfl, rfl⟩
      obtain ⟨picks, occupant, dirty, stops, table, generation⟩ := stopped
      rw [← restored] at stops table generation
      refine .unwritten lacks picks occupant dirty claimed.idle still stops table generation ?_
      refine lacks.of_stopsAt stops fun q hq => ?_
      obtain rfl := Option.some.inj hq
      exact lacks v o occupant
    | written stays cleaned =>
      have same' := same.trans stays
      have log := evicting_of_dirty stopped.occupant stopped.dirty
      rw [same.buffer]
      show Supplying s₀ f p k _ [.write o (s₀.pool.buffer v) .done] _
      rw [← log]
      exact .again lacks (same'.trans ⟨rfl, rfl, rfl⟩) stopped cleaned

end Fetch

end System

/-- Whatever the page files answer, a fetch that nobody disturbs comes to one of five ends. A page
that is resident is pinned once more and counts as used, nothing else changes, and no file is
called. If it is not and every page is pinned, the pool is exhausted, and only reference bits are
cleared. Otherwise the hand takes a frame. If its page is dirty, it is written once before anything
else, and if that fails, the page stays there, dirty and at rest. Then the page that was asked for
is read once. If that fails, the frame is empty and its content zeros; otherwise it holds the page,
pinned once, used, clean and at rest. Nothing else changes but the reference bits of the pages that
were spared. -/
theorem fetch_undisturbed {n : Nat} (hn : 0 < n) {c : Catalog} (hd : c.Distinct) {h : History}
    {s : System} (run : ReachesShared (fun _ => True) (.new n c) h s)
    (idle : ∀ t, s.tasks.find? t = none) {f : FileNo} (hf : f < c.files.size) (p : PageNo)
    {k : HandleNo} (hk : s.handles.find? k = none) (t : TaskId) {faults : List (Option Fault)}
    (enough : s.ampleSteps ≤ faults.length) :
    ∃ s' log r, (s.begin t (.fetch f p k)).goOn faults t = (s', log, some r) ∧ s'.Quiescent ∧
      s.files.Logs log s'.files ∧ s.Supplied f p k r log s' := by
  have quiet := run.quiescent hn idle
  have hf : s.hasFile f := (run.hasFile hn f).2 hf
  have placed := run.placed hn hd
  have opened (i : FrameNo) (o : Occupant) (ho : s.pool.ledger.occupant? i = some o) :
      s.hasFile o.file := placed.opened ho
  have first : s.Supplying f p k (System.firstTask s.labels (.fetch f p k)) []
      (s.begin t (.fetch f p k)) := .look ⟨rfl, rfl, rfl⟩ rfl
  have admits : s.Admits (.fetch f p k) := ⟨hf, hk, quiet.isUnused k⟩
  exact quiet.goOn (I := s.Supplying f p k) (Q := s.Supplied f p k) admits enough first
    fun fault alone _ h =>
      System.supplying_step quiet (run.distinct hn hd) opened hf placed.sized alone h fault

/-- The hand spares a page that has been used, passes a pinned one, and takes the frame of the first
once it has come round. The page there is written before the new one is read. -/
theorem fetch_undisturbed_pair : ∃ h s, ReachesShared (fun _ => True) .pair h s ∧
    (∀ t, s.tasks.find? t = none) ∧ s.handles.find? 2 = none ∧
    s.pool.ledger.Pinned 1 ∧ s.pool.ledger.Picks [0, 1] 0 ∧
    ∃ s' log, (s.begin 0 (.fetch 0 2 2)).goOn (List.replicate 24 none) 0 =
        (s', log, some (.lent 2 0)) ∧
      log = [⟨0, .write 0 (.page (s.pool.buffer 0)), .done⟩,
        ⟨0, .read 2 (.page (s.pool.buffer 0)), .content .zero⟩] ∧
      s.files.Logs log s'.files ∧ s.Supplied 0 2 2 (.lent 2 0) log s' := by
  have unused : (System.pair.play pairHeld).2.handles.find? 2 = none := rfl
  have enough : (System.pair.play pairHeld).2.ampleSteps ≤
    (List.replicate 24 (none : Option Fault)).length := Nat.le_refl 24
  obtain ⟨s', log, r, hgo, -, logs, supplied⟩ := fetch_undisturbed Nat.zero_lt_two distinct_pair
    reaches_pairHeld.shared idle_pairHeld Nat.zero_lt_one 2 unused 0 enough
  have ran : (((System.pair.play pairHeld).2.begin 0 (.fetch 0 2 2)).goOn
    (List.replicate 24 none) 0).2 = (_, some (.lent 2 0)) := rfl
  obtain ⟨rfl, lent⟩ := Prod.mk.inj ((congrArg (·.2) hgo).symm.trans ran)
  obtain rfl := Option.some.inj lent
  exact ⟨_, _, reaches_pairHeld.shared, idle_pairHeld, unused, ⟨_, rfl, by decide⟩, .second rfl rfl,
    s', _, hgo, rfl, logs, supplied⟩

end SecondChance
