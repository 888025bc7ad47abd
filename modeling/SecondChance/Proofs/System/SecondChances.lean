import SecondChance.Proofs.Ledger.Visits
import SecondChance.Proofs.System.MoveEffects
import SecondChance.Proofs.System.Departures

/-!
Second chances over whole runs.

Whoever is asked for counts as used, and the hand takes that note away when it comes by. So between
the last time that somebody got a page and the sweep that drives it out the hand comes by twice, and
goes past every other frame in between. A page that is taken because it has just been written back
is another matter: it may have been in use once more while it was written, and then one visit is
enough for its note to be gone.
-/

namespace SecondChance

def Acquisition.pinned? : Acquisition → Option FrameNo
  | .hit stay _ | .load stay _ => some stay.frame
  | _ => none

def Acquisition.claimed? : Acquisition → Option FrameNo
  | .writeBack stay => some stay.frame
  | _ => none

namespace Ledger

variable {labels : Labels} {l l' : Ledger} {i : FrameNo} {o : Occupant}

/-! ### What others do while the hand rests -/

/-- Neither has the hand moved nor has a page come in, and every page is as much in use as
before. -/
structure HandRests (l l' : Ledger) : Prop where
  hand : l'.hand = l.hand
  back {i : FrameNo} {o' : Occupant} (ho : l'.occupant? i = some o') :
    ∃ o, l.occupant? i = some o ∧ o'.referenced = o.referenced

namespace HandRests

theorem refl (l : Ledger) : l.HandRests l := ⟨rfl, fun ho => ⟨_, ho, rfl⟩⟩

theorem setOccupant {q : Occupant} (ho : l.occupant? i = some o)
    (hr : q.referenced = o.referenced) : l.HandRests (l.setOccupant i q) where
  hand := rfl
  back {j q'} hq := by
    rw [occupant?_setOccupant (lt_size_of_occupant? ho)] at hq
    split at hq
    · next hj =>
      subst hj
      obtain rfl := Option.some.inj hq
      exact ⟨o, ho, hr⟩
    · exact ⟨q', hq, rfl⟩

theorem vacate (ho : l.occupant? i = some o) (k : PageKey) : l.HandRests (l.vacate i k) where
  hand := rfl
  back {j q} hq := by
    rw [occupant?_vacate (lt_size_of_occupant? ho)] at hq
    split at hq
    · cases hq
    · exact ⟨q, hq, rfl⟩

theorem settle (labels : Labels) (l : Ledger) (t : Transfer) (ok : Bool) :
    l.HandRests (l.settle labels t ok) := by
  unfold Ledger.settle
  split
  · exact .refl l
  · next o hat =>
    have ho := (occupantAt_frame.1 hat).2
    split
    · split
      · exact .vacate ho _
      · exact .setOccupant ho rfl
      · exact .setOccupant ho rfl
    · exact .refl l

end HandRests

theorem Expels.handRests {key : PageKey} {file : String} {page : PageNo}
    {r : Except PoolError (Option FrameNo)} (h : l.Expels key file page l' r) : l.HandRests l' := by
  cases h with
  | emptied hk ho => exact .vacate ho _
  | _ => exact .refl l

theorem FlushesFile.handRests {id : FileId} {r : Except PoolError Flush}
    (h : l.FlushesFile labels i id l' r) : l.HandRests l' := by
  cases h with
  | claimed ho => exact .setOccupant ho rfl
  | emptied ho => exact .vacate ho _
  | _ => exact .refl l

theorem FlushesAll.handRests {r : Flush} (h : l.FlushesAll i l' r) : l.HandRests l' := by
  cases h with
  | claimed ho => exact .setOccupant ho rfl
  | _ => exact .refl l

theorem Returns.handRests {stay : Stay} {dirty : Bool} {r : Except PoolError Unit}
    (h : l.Returns labels stay dirty l' r) : l.HandRests l' := by
  cases h with
  | ok hat => exact .setOccupant (occupantAt_frame.1 hat).2 rfl
  | _ => exact .refl l

theorem handRests_unpinPage {file : FileNo} {page : PageNo} {dirty : Bool}
    {r : Except PoolError (Option (FrameNo × Nat))}
    (h : l.unpinPage labels file page dirty = (l', r)) : l.HandRests l' := by
  rcases unpinPage_cases h with ⟨rfl, -⟩ | ⟨i, o, -, ho, -, rfl, -⟩
  · exact .refl _
  · exact .setOccupant ho rfl

theorem Yields.handRests {v : Victim} (h : l.Yields labels v l') : l.HandRests l' := by
  cases h with
  | vacant | busy => exact .refl l
  | evicted ho | claimed ho => first | exact .vacate ho _ | exact .setOccupant ho rfl

/-! ### What a look for a page does to each of them -/

/-- No page comes in, and the hand has come by wherever a page is no longer in use. -/
def Fades (l : Ledger) (vs : List FrameNo) (l' : Ledger) : Prop :=
  ∀ i o', l'.occupant? i = some o' →
    ∃ o, l.occupant? i = some o ∧ (o'.referenced = false → o.referenced = false ∨ i ∈ vs)

theorem Tour.fades {vs : List FrameNo} (h : l.Tour vs l') : l.Fades vs l' := by
  intro i o' ho'
  obtain ⟨o, ho, rfl⟩ := h.before ho'
  refine ⟨o, ho, fun hr => ?_⟩
  split at hr
  · next hi => exact .inr hi
  · exact .inl hr

theorem Finds.fades {vs : List FrameNo} {v : Victim} (h : l.Finds labels vs v l') :
    l.Fades vs l' := by
  obtain ⟨us, m, -, -, tour, yields⟩ := h.found
  intro i o' ho'
  obtain ⟨p, hp, hr⟩ := yields.handRests.back ho'
  rw [hr]
  exact tour.fades i p hp

/-- The hand has come by a victim twice, or once and its reference bit was clear before. -/
theorem Finds.chance {vs : List FrameNo} {v : Victim} (h : l.Finds labels vs v l')
    (ho : l.occupant? v.frame = some o) :
    2 ≤ vs.count v.frame ∨ (o.referenced = false ∧ v.frame ∈ vs) := by
  obtain ⟨us, m, rfl, hc, -⟩ := h.found
  rcases hc with hu | hr
  · refine .inl ?_
    rw [List.count_append, List.count_singleton_self]
    exact Nat.add_le_add_right (List.one_le_count_iff.2 hu) 1
  · refine .inr ⟨Bool.eq_false_iff.2 fun h => hr ⟨o, ho, h⟩, ?_⟩
    exact List.mem_append_right us (List.mem_singleton_self _)

theorem Tour.keeps {vs : List FrameNo} (h : l.Tour vs l') (ho : l.occupant? i = some o) :
    l.Keeps l' i o := by
  refine ⟨_, h.after ho, ?_, ?_, h.generation i⟩ <;> split <;> rfl

theorem Keeps.trans {m : Ledger} (h : l.Keeps m i o)
    (h' : ∀ p, m.occupant? i = some p → m.Keeps l' i p) : l.Keeps l' i o := by
  obtain ⟨p, hp, hf, hn, hg⟩ := h
  obtain ⟨q, hq, hf', hn', hg'⟩ := h' p hp
  exact ⟨q, hq, hf'.trans hf, hn'.trans hn, hg'.trans hg⟩

theorem Finds.keeps {vs : List FrameNo} {v : Victim} (h : l.Finds labels vs v l')
    (ho : l.occupant? i = some o) (hi : v.frame ≠ i) : l.Keeps l' i o := by
  obtain ⟨us, m, -, -, tour, yields⟩ := h.found
  refine (tour.keeps ho).trans fun p hp => ?_
  cases yields with
  | vacant | busy => exact .refl hp
  | evicted hq => exact keeps_vacate hq hi _ hp
  | claimed hq => exact keeps_setOccupant hq rfl rfl hp

/-- The page `o` was in frame `i` of `l` before a look with the answer `a`. It has been in use until
the hand came by, and if it is claimed then the hand has found it out of use. -/
structure Stood (l : Ledger) (vs : List FrameNo) (a : Option Acquisition) (i : FrameNo)
    (o : Occupant) : Prop where
  unpinned : a.bind (·.pinned?) ≠ some i
  before : ∃ p, l.occupant? i = some p ∧ (o.referenced = false → p.referenced = false ∨ i ∈ vs) ∧
    (a.bind (·.claimed?) = some i → 2 ≤ vs.count i ∨ (p.referenced = false ∧ i ∈ vs))

theorem HandRests.stood {l l' : Ledger} {i : FrameNo} {o : Occupant} (h : l.HandRests l')
    (ho : l'.occupant? i = some o) : l.Stood [] none i o where
  unpinned := nofun
  before := by
    obtain ⟨p, hp, hr⟩ := h.back ho
    exact ⟨p, hp, fun hf => .inl (hr.symm.trans hf), nofun⟩

theorem Fades.stood {m : Ledger} {vs : List FrameNo} {a : Option Acquisition} (h : l.Fades vs m)
    (ho : m.occupant? i = some o) (hp : a.bind (·.pinned?) ≠ some i)
    (hc : a.bind (·.claimed?) ≠ some i) : l.Stood vs a i o := by
  obtain ⟨p, hp', hr⟩ := h i o ho
  exact ⟨hp, p, hp', hr, fun h => (hc h).elim⟩

section Seeks

variable {file : FileNo} {page : PageNo} {written : Option Stay} {vs : List FrameNo}
  {r : Except PoolError Acquisition} (h : l.Seeks labels file page written vs l' r)
include h

theorem Seeks.back {o' : Occupant} (ho' : l'.occupant? i = some o') :
    (r.toOption.bind (·.pinned?) = some i ∧ o'.referenced = true) ∨
      l.Stood vs r.toOption i o' := by
  have still : l.Fades [] l := fun _ o ho => ⟨o, ho, .inl⟩
  cases h with
  | @hit j p hp =>
    rw [occupant?_setOccupant (lt_size_of_occupant? hp)] at ho'
    split at ho'
    · next hj =>
      subst hj
      obtain rfl := Option.some.inj ho'
      exact .inl ⟨rfl, rfl⟩
    · next hj => exact .inr (still.stood ho' (fun he => hj (Option.some.inj he)) nofun)
  | astray => exact .inr (still.stood ho' nofun nofun)
  | @reclaimed stay p hw hp hr =>
    have hlt := lt_size_of_occupant? hp
    rw [occupant?_install (by rwa [size_vacate]), occupant?_vacate hlt] at ho'
    split at ho'
    · next hj =>
      obtain rfl := Option.some.inj ho'
      exact .inl ⟨congrArg some hj, rfl⟩
    · next hj =>
      exact .inr (still.stood ho' (fun he => hj (Option.some.inj he)) nofun)
  | placed finds =>
    rw [occupant?_install finds.vacant.1] at ho'
    split at ho'
    · next hj =>
      obtain rfl := Option.some.inj ho'
      exact .inl ⟨congrArg some hj, rfl⟩
    · next hj =>
      exact .inr (finds.fades.stood ho' (fun he => hj (Option.some.inj he)) nofun)
  | claimed finds =>
    obtain ⟨o, ho, hr⟩ := finds.fades i o' ho'
    refine .inr ⟨nofun, o, ho, hr, fun he => ?_⟩
    obtain rfl := Option.some.inj he
    exact finds.chance ho
  | waits tour | exhausted tour => exact .inr (tour.fades.stood ho' nofun nofun)

/-- A page that has to leave has been found out of use by the hand, or has just been written
back. -/
theorem Seeks.leaves (ho : l.occupant? i = some o) (hl : ¬ l.Keeps l' i o) :
    2 ≤ vs.count i ∨ o.referenced = false ∧ (i ∈ vs ∨
      vs = [] ∧ ∃ stay, written = some stay ∧ stay.frame = i) := by
  have chance {v : Victim} {m : Ledger} (finds : l.Finds labels vs v m) (hi : v.frame = i) :
      2 ≤ vs.count i ∨ o.referenced = false ∧ (i ∈ vs ∨
        vs = [] ∧ ∃ stay, written = some stay ∧ stay.frame = i) := by
    subst hi
    exact (finds.chance ho).imp_right fun hc => ⟨hc.1, .inl hc.2⟩
  cases h with
  | @hit j p hp => exact (hl (keeps_setOccupant hp rfl rfl ho)).elim
  | astray => exact (hl (.refl ho)).elim
  | @reclaimed stay p hw hp hr =>
    by_cases hi : stay.frame = i
    · subst hi
      obtain rfl := Option.some.inj (ho.symm.trans hp)
      exact .inr ⟨hr, .inr ⟨rfl, stay, hw, rfl⟩⟩
    · have hlt := lt_size_of_occupant? hp
      refine (hl ((keeps_vacate hp hi _ ho).trans fun _ => keeps_install ?_ ?_ _ _ _)).elim
      · rwa [size_vacate]
      · rw [occupant?_vacate hlt, if_pos rfl]
  | @placed _ m j left finds =>
    by_cases hi : j = i
    · exact chance finds hi
    · obtain ⟨hlt, hv⟩ := finds.vacant
      exact (hl ((finds.keeps ho hi).trans fun _ => keeps_install hlt hv _ _ _)).elim
  | @claimed _ _ stay finds =>
    by_cases hi : stay.frame = i
    · exact chance finds hi
    · exact (hl (finds.keeps ho hi)).elim
  | waits tour | exhausted tour => exact (hl (tour.keeps ho)).elim

theorem Seeks.path (hl : l.hand < l.size) :
    vs = ahead l.size l.hand vs.length ∧ l'.hand = (l.hand + vs.length) % l.size := by
  have stays : l.hand = (l.hand + ([] : List FrameNo).length) % l.size :=
    (Nat.mod_eq_of_lt hl).symm
  have finds {v : Victim} {m : Ledger} (h : l.Finds labels vs v m) :
      vs = ahead l.size l.hand vs.length ∧ m.hand = (l.hand + vs.length) % l.size := by
    obtain ⟨us, m', -, -, tour, yields⟩ := h.found
    exact ⟨tour.path, yields.handRests.hand.trans tour.hand⟩
  cases h with
  | hit | astray | reclaimed => exact ⟨rfl, stays⟩
  | placed h => exact ⟨(finds h).1, (finds h).2⟩
  | claimed h => exact finds h
  | waits tour | exhausted tour => exact ⟨tour.path, tour.hand⟩

end Seeks

end Ledger

namespace System

variable {s : System} {m : Move}

/-- The move is a fetch's look for a page. -/
def Looks (s : System) (m : Move) (file : FileNo) (page : PageNo) (written : Option Stay) : Prop :=
  ∃ t fault h look, m = .resume t fault ∧
    s.tasks.find? t = some (.fetch file page h written (.look look))

def answer? (s : System) : Move → Option Acquisition
  | .resume t _ =>
    match s.tasks.find? t with
    | some (.fetch file page _ written (.look _)) =>
      (s.pool.ledger.acquire s.labels file page written).2.toOption
    | _ => none
  | _ => none

def pinned? (s : System) (m : Move) : Option FrameNo := (s.answer? m).bind (·.pinned?)

/-- The frame whose page is claimed in a move in order to make room. -/
def claimed? (s : System) (m : Move) : Option FrameNo := (s.answer? m).bind (·.claimed?)

/-- The frames that the hand visits in a move, one after the other. -/
def visits (s : System) : Move → List FrameNo
  | .resume t _ =>
    match s.tasks.find? t with
    | some (.fetch file page _ written (.look _)) =>
      s.pool.ledger.acquireVisits s.labels file page written
    | _ => []
  | _ => []

/-- The page `o` leaves frame `i` because a frame is needed for another. -/
def Replaces (s : System) (m : Move) (i : FrameNo) (o : Occupant) : Prop :=
  (∃ file page written, s.Looks m file page written) ∧
    ¬ s.pool.ledger.Keeps (s.after m).pool.ledger i o

/-- A fetch that has written back the page in frame `i` takes the frame, and the hand stays. -/
def Reclaims (s : System) (m : Move) (i : FrameNo) : Prop :=
  ∃ file page stay, s.Looks m file page (some stay) ∧ stay.frame = i ∧ s.visits m = []

theorem Looks.seeks (hs : s.Regular) {file : FileNo} {page : PageNo} {written : Option Stay}
    (h : s.Looks m file page written) : ∃ r, s.answer? m = r.toOption ∧
      s.pool.ledger.Seeks s.labels file page written (s.visits m) (s.after m).pool.ledger r := by
  obtain ⟨t, fault, h, look, rfl, ht⟩ := h
  refine ⟨(s.pool.ledger.acquire s.labels file page written).2, ?_, ?_⟩
  · simp only [answer?, ht]
  · rw [ledger_resume ht, advance, ledger_lookForFetch]
    simp only [visits, ht]
    exact Ledger.acquire_seeks hs.consistent.hand_lt rfl

/-- Nothing but a look for a page moves the hand, brings a page in or concerns the use of a page. -/
theorem Deed.handRests {l : Ledger} {buffers : Array Page} {files : Catalog}
    (d : s.Deed m l buffers files) (h : ∀ file page written, ¬ s.Looks m file page written) :
    s.pool.ledger.HandRests l := by
  cases d with
  | fetch ht => exact (h _ _ _ ⟨_, _, _, _, rfl, ht⟩).elim
  | expel ht he => exact he.handRests
  | flushFile hf => exact hf.handRests
  | flushAll hf => exact hf.handRests
  | giveBack hr => exact hr.handRests
  | unpin hr => exact Ledger.handRests_unpinPage hr
  | load | save | giveUp => exact .settle ..
  | rest | fill | strike | edit | allocate | delete => exact .refl _

theorem visits_answer?_of_not_looks (h : ∀ file page written, ¬ s.Looks m file page written) :
    s.visits m = [] ∧ s.answer? m = none := by
  cases m with
  | resume t fault =>
    cases ht : s.tasks.find? t with
    | none => simp [visits, answer?, ht]
    | some task =>
      cases task with
      | fetch file page k written stage =>
        cases stage with
        | look look => exact (h _ _ _ ⟨t, fault, k, look, rfl, ht⟩).elim
        | move => simp [visits, answer?, ht]
      | _ => simp [visits, answer?, ht]
  | _ => exact ⟨rfl, rfl⟩

theorem way_of_hand (hs : s.Regular) (hp : s.Permits m) :
    s.visits m = ahead s.pool.ledger.size s.pool.ledger.hand (s.visits m).length ∧
      (s.after m).pool.ledger.hand =
        (s.pool.ledger.hand + (s.visits m).length) % s.pool.ledger.size ∧
      ∀ {i o}, (s.after m).pool.ledger.occupant? i = some o →
        (s.pinned? m = some i ∧ o.referenced = true) ∨
          s.pool.ledger.Stood (s.visits m) (s.answer? m) i o := by
  by_cases h : ∃ file page written, s.Looks m file page written
  · obtain ⟨file, page, written, h⟩ := h
    obtain ⟨r, ha, seeks⟩ := h.seeks hs
    rw [pinned?, ha]
    obtain ⟨path, hand⟩ := seeks.path hs.consistent.hand_lt
    exact ⟨path, hand, seeks.back⟩
  · simp only [not_exists] at h
    obtain ⟨hv, ha⟩ := visits_answer?_of_not_looks h
    have rests := (does_after hs.consistent.size_pos hp).handRests h
    rw [hv, ha]
    refine ⟨rfl, rests.hand.trans (Nat.mod_eq_of_lt hs.consistent.hand_lt).symm, ?_⟩
    exact fun ho => .inr (rests.stood ho)

end System

namespace History

/-- The frames that the hand has visited, one after the other. -/
def visits : History → List FrameNo
  | [] => []
  | (s, m) :: h => visits h ++ s.visits m

/-- The moves since the one in which somebody last got the page in frame `i`. -/
def sincePinned (i : FrameNo) : History → Option History
  | [] => none
  | (s, m) :: h => if s.pinned? m = some i then some [] else (sincePinned i h).map ((s, m) :: ·)

theorem visits_append (later earlier : History) :
    visits (later ++ earlier) = visits earlier ++ visits later := by
  induction later with
  | nil => rw [List.nil_append, visits, List.append_nil]
  | cons x later ih => rw [List.cons_append, visits, ih, visits, List.append_assoc]

theorem sincePinned_eq_some {i : FrameNo} {h later : History} : sincePinned i h = some later ↔
    ∃ x earlier, h = later ++ x :: earlier ∧ x.1.pinned? x.2 = some i ∧
      ∀ y ∈ later, y.1.pinned? y.2 ≠ some i := by
  induction h generalizing later with
  | nil => simp [sincePinned]
  | cons z h ih =>
    rw [sincePinned]
    split
    · next hz =>
      constructor
      · intro he
        obtain rfl := Option.some.inj he
        exact ⟨z, h, rfl, hz, nofun⟩
      · rintro ⟨x, earlier, he, hx, hlater⟩
        cases later with
        | nil => rfl
        | cons y later =>
          obtain ⟨rfl, -⟩ := List.cons.inj he
          exact (hlater _ List.mem_cons_self hz).elim
    · next hz =>
      rw [Option.map_eq_some_iff]
      constructor
      · rintro ⟨later, hl, rfl⟩
        obtain ⟨x, earlier, rfl, hx, hlater⟩ := ih.1 hl
        exact ⟨x, earlier, rfl, hx, List.forall_mem_cons.2 ⟨hz, hlater⟩⟩
      · rintro ⟨x, earlier, he, hx, hlater⟩
        cases later with
        | nil =>
          obtain ⟨rfl, -⟩ := List.cons.inj he
          exact (hz hx).elim
        | cons y later =>
          obtain ⟨rfl, rfl⟩ := List.cons.inj he
          exact ⟨later, ih.2 ⟨x, earlier, rfl, hx, (List.forall_mem_cons.1 hlater).2⟩, rfl⟩

end History

namespace System

/-- The frames visited so far follow one another from the first on, and the hand rests on the last
of them. Every page in a frame has been got by somebody; if its reference bit is clear the hand has
visited the frame since then, and if it has been claimed since then, twice. -/
structure Watched (n : Nat) (h : History) (s : System) : Prop where
  size : s.pool.ledger.size = n
  path : h.visits = ahead n (n - 1) h.visits.length
  hand : s.pool.ledger.hand = (n - 1 + h.visits.length) % n
  known {i : FrameNo} {o : Occupant} (ho : s.pool.ledger.occupant? i = some o) :
    ∃ later, h.sincePinned i = some later ∧ (o.referenced = false → i ∈ later.visits) ∧
      ((∃ x ∈ later, x.1.claimed? x.2 = some i) → 2 ≤ later.visits.count i)

namespace Watched

variable {n : Nat} {h : History} {s : System} {m : Move}

theorem new {n : Nat} (hn : 0 < n) (c : Catalog) : (System.new n c).Watched n [] where
  size := Array.size_replicate ..
  path := rfl
  hand := (Nat.mod_eq_of_lt (Nat.sub_one_lt_of_lt hn)).symm
  known {i o} ho := by
    rw [show (System.new n c).pool.ledger = Ledger.new n from rfl, Ledger.occupant?_new] at ho
    cases ho

/-- `Watched` is kept by every permitted move. -/
theorem move (w : s.Watched n h) (hs : s.Regular) (hp : s.Permits m) :
    (s.after m).Watched n ((s, m) :: h) := by
  have acts := System.acts_after hs.orderly hs.consistent.size_pos hp
  obtain ⟨path, hand, back⟩ := System.way_of_hand hs hp
  rw [w.size] at path hand
  constructor
  case size => exact acts.size.trans w.size
  case path =>
    rw [History.visits, List.length_append, ahead_add, ← w.hand, ← w.path, ← path]
  case hand =>
    rw [hand, w.hand, History.visits, List.length_append, Nat.mod_add_mod, Nat.add_assoc]
  case known =>
    intro i o' ho'
    rcases back ho' with ⟨hpin, hr⟩ | stood
    · refine ⟨[], ?_, fun hf => ?_, nofun⟩
      · rw [History.sincePinned, if_pos hpin]
      · rw [hr] at hf
        cases hf
    · have unpinned : s.pinned? m ≠ some i := stood.unpinned
      obtain ⟨o, ho, hr, hc⟩ := stood.before
      obtain ⟨later, hl, visited, twice⟩ := w.known ho
      -- What the hand had found by then counts.
      have once (hu : o.referenced = false) (hi : i ∈ s.visits m) :
          2 ≤ (later.visits ++ s.visits m).count i := by
        rw [List.count_append]
        exact Nat.add_le_add (List.one_le_count_iff.2 (visited hu)) (List.one_le_count_iff.2 hi)
      refine ⟨(s, m) :: later, ?_, fun hf => ?_, ?_⟩
      · rw [History.sincePinned, if_neg unpinned, hl]
        rfl
      · exact List.mem_append.2 ((hr hf).imp_left visited)
      · rintro ⟨x, hx, hclaim⟩
        rw [History.visits]
        rcases List.mem_cons.1 hx with rfl | hx
        · rcases hc hclaim with hv | ⟨hu, hi⟩
          · exact Nat.le_trans hv ((List.sublist_append_right ..).count_le i)
          · exact once hu hi
        · exact Nat.le_trans (twice ⟨x, hx, hclaim⟩) ((List.sublist_append_left ..).count_le i)

end Watched

end System

theorem ReachesShared.watched {allowed : Move → Prop} {n : Nat} (hn : 0 < n) {c : Catalog}
    {h : History} {s : System} (run : ReachesShared allowed (.new n c) h s) : s.Watched n h := by
  induction run with
  | start => exact .new hn c
  | move run possible _ ih => exact ih.move (run.regular hn) possible
  | others _ _ ih => exact ⟨ih.size, ih.path, ih.hand, ih.known⟩

/-- Whenever a page has to leave its frame for another, the hand has visited the frame at least
twice since somebody last got the page, counting the visit in which the page was found, and has
visited every other frame between two such visits. The one exception is a page that somebody got
while it was being written back: it leaves when that is over, and the hand has visited it at least
once. -/
theorem replaced_pages_visited {n : Nat} (hn : 0 < n) (c : Catalog) {h : History} {s : System}
    (run : ReachesShared (fun _ => True) (.new n c) h s) {m : Move} (hp : s.Permits m) {i : FrameNo}
    {o : Occupant} (ho : s.pool.ledger.occupant? i = some o) (hr : s.Replaces m i o) :
    ∃ later, h.sincePinned i = some later ∧
      ((2 ≤ (later.visits ++ s.visits m).count i ∧
          ∀ a b c, later.visits ++ s.visits m = a ++ i :: (b ++ i :: c) →
            ∀ j < n, j ≠ i → j ∈ b) ∨
        (s.Reclaims m i ∧ i ∈ later.visits ∧ ∀ x ∈ later, x.1.claimed? x.2 ≠ some i)) := by
  have hs := run.regular hn
  have w := run.watched hn
  obtain ⟨⟨file, page, written, looks⟩, left⟩ := hr
  obtain ⟨later, hl, visited, twice⟩ := w.known ho
  refine ⟨later, hl, ?_⟩
  obtain ⟨x, earlier, rfl, -⟩ := History.sincePinned_eq_some.1 hl
  -- What has been visited since is the last part of the way that the hand has gone.
  have between (a b c : List FrameNo) (hv : later.visits ++ s.visits m = a ++ i :: (b ++ i :: c))
      (j : FrameNo) (hj : j < n) (hne : j ≠ i) : j ∈ b := by
    have path := (w.move hs hp).path
    rw [History.visits, History.visits_append, List.append_assoc, hv, ← List.append_assoc] at path
    exact mem_of_ahead_eq path.symm hj hne
  obtain ⟨r, -, seeks⟩ := looks.seeks hs
  rcases seeks.leaves ho left with hv | ⟨hu, hv | ⟨hv, stay, rfl, hi⟩⟩
  · exact .inl ⟨Nat.le_trans hv ((List.sublist_append_right ..).count_le i), between⟩
  · refine .inl ⟨?_, between⟩
    rw [List.count_append]
    exact Nat.add_le_add (List.one_le_count_iff.2 (visited hu)) (List.one_le_count_iff.2 hv)
  · by_cases hc : ∃ x ∈ later, x.1.claimed? x.2 = some i
    · exact .inl ⟨Nat.le_trans (twice hc) ((List.sublist_append_left ..).count_le i), between⟩
    · simp only [not_exists, not_and] at hc
      exact .inr ⟨⟨file, page, stay, looks, hi, hv⟩, visited hu, hc⟩

/-- A page is changed and given back, and another page is asked for: the first is written back and
has to leave. -/
def smallReplaced : List Move :=
  [.begin 0 (.allocate 0 0), .resume 0 none, .resume 0 none, .resume 0 none, .markDirty 0,
    .release 0, .begin 1 (.fetch 0 1 1), .resume 1 none, .resume 1 none]

/-- The hand has come by twice before the page leaves. -/
theorem replaced_pages_visited_small : ∃ h s, Reaches (fun _ => True) .small h s ∧
    s.Replaces (.resume 1 none) 0 ⟨0, 0, 0, false, false, .idle⟩ ∧
    ∃ later, h.sincePinned 0 = some later ∧
      2 ≤ (later.visits ++ s.visits (.resume 1 none)).count 0 := by
  have run : Reaches (fun _ => True) .small (System.small.play smallReplaced).1
      (System.small.play smallReplaced).2 := by
    refine .play ⟨⟨rfl, Nat.zero_lt_one, rfl, nofun⟩, rfl, rfl, rfl, ⟨⟨_, rfl⟩, nofun⟩,
      ⟨⟨_, rfl⟩, nofun⟩, ⟨rfl, Nat.zero_lt_one, rfl, nofun⟩, rfl, rfl, trivial⟩ fun _ _ => trivial
  have possible : (System.small.play smallReplaced).2.Permits (.resume 1 none) := rfl
  have left : (System.small.play smallReplaced).2.Replaces (.resume 1 none) 0
      ⟨0, 0, 0, false, false, .idle⟩ := by
    refine ⟨⟨0, 1, some ⟨0, 0, 0, 1⟩, 1, none, 1, none, rfl, rfl⟩, ?_⟩
    rintro ⟨o, -, -, -, hg⟩
    exact absurd (show 2 = 1 from hg) (by decide)
  have since : (System.small.play smallReplaced).1.sincePinned 0 =
    some ((System.small.play smallReplaced).1.take 6) := rfl
  obtain ⟨later, hl, ⟨hv, -⟩ | ⟨-, -, unclaimed⟩⟩ :=
    replaced_pages_visited Nat.zero_lt_one _ run.shared possible rfl left
  · exact ⟨_, _, run, left, later, hl, hv⟩
  · obtain rfl := Option.some.inj (since.symm.trans hl)
    exact (unclaimed _ (.tail _ (.head _)) rfl).elim

/-- While a page is being written back to make room for another, somebody gets it once more and
gives it back, and a third page is asked for. -/
def smallHitAgain : List Move :=
  [.begin 0 (.allocate 0 0), .resume 0 none, .resume 0 none, .resume 0 none, .markDirty 0,
    .release 0, .begin 1 (.fetch 0 1 1), .resume 1 none, .begin 2 (.fetch 0 0 2), .resume 2 none,
    .release 2, .begin 3 (.fetch 0 2 3), .resume 3 none, .resume 1 none]

/-- A page that was got and given back while it was being written back has to leave after a single
visit of the hand since then. -/
theorem hit_page_reclaimed :
    Reaches (fun _ => True) .small (System.small.play smallHitAgain).1
      (System.small.play smallHitAgain).2 ∧
    (System.small.play smallHitAgain).2.Permits (.resume 1 none) ∧
    (System.small.play smallHitAgain).2.Replaces (.resume 1 none) 0
      ⟨0, 0, 0, false, false, .idle⟩ ∧
    ∃ later, (System.small.play smallHitAgain).1.sincePinned 0 = some later ∧
      (later.visits ++ (System.small.play smallHitAgain).2.visits (.resume 1 none)).count 0 = 1 := by
  refine ⟨.play ⟨⟨rfl, Nat.zero_lt_one, rfl, nofun⟩, rfl, rfl, rfl, ⟨⟨_, rfl⟩, nofun⟩,
    ⟨⟨_, rfl⟩, nofun⟩, ⟨rfl, Nat.zero_lt_one, rfl, nofun⟩, rfl,
    ⟨rfl, Nat.zero_lt_one, rfl, by decide⟩, rfl, ⟨⟨_, rfl⟩, by decide⟩,
    ⟨rfl, Nat.zero_lt_one, rfl, by decide⟩, rfl, rfl, trivial⟩ fun _ _ => trivial, rfl,
    ⟨⟨0, 1, some ⟨0, 0, 0, 1⟩, 1, none, 1, none, rfl, rfl⟩, ?_⟩, _, rfl, rfl⟩
  rintro ⟨o, -, -, -, hg⟩
  exact absurd (show 2 = 1 from hg) (by decide)

end SecondChance
