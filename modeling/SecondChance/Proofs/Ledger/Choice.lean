import Mathlib.Data.List.Find
import Mathlib.Data.List.Nodup
import Mathlib.Data.Nat.ModEq
import SecondChance.Proofs.Ledger.Consistency
import SecondChance.Proofs.Ledger.Visits

/-!
Which frame a sweep chooses.

The hand comes by the frames in one order, from behind the frame it points at around to that frame.
It takes the first frame that is *open*: empty, or with a page that is available and has not been
used lately. If no frame is open, the first revolution leaves no reference bit set, and what the
second one finds is the first page that is available at all. If there is none of these either, the
sweep says which frame to wait for, or that every page is pinned.

The loop of a sweep says nowhere how often the hand may go around. That twice is enough is part of
what is proved.
-/

namespace SecondChance

theorem nodup_ahead {n k : Nat} (hand : FrameNo) (hk : k ≤ n) : (ahead n hand k).Nodup := by
  refine List.Nodup.map_on (fun d hd e he same => ?_) List.nodup_range
  have hd := Nat.lt_of_lt_of_le (List.mem_range.1 hd) hk
  have he := Nat.lt_of_lt_of_le (List.mem_range.1 he) hk
  exact Nat.ModEq.eq_of_lt_of_lt (Nat.ModEq.add_left_cancel' (hand + 1) same) hd he

namespace Ledger

variable {labels : Labels} {l m l' : Ledger} {i j v : FrameNo} {us ws : List FrameNo}

/-- The frames in the order in which the hand comes by. -/
def order (l : Ledger) : List FrameNo := ahead l.size l.hand l.size

def isAvailable (l : Ledger) (i : FrameNo) : Bool :=
  (l.occupant? i).any fun o => o.standing = .available

def isUnpinned (l : Ledger) (i : FrameNo) : Bool := (l.occupant? i).any fun o => o.pins = 0

/-- The frame is empty, or nobody has its page, which is not being moved and has not been used
lately. -/
def isOpen (l : Ledger) (i : FrameNo) : Bool := (l.occupant? i).all (·.isEvictable)

/-- The loop of a sweep, for so many revolutions at most: the hand goes around until it finds a
victim or has gone around without passing an available page. -/
def goAround (labels : Labels) : (revolutions : Nat) → Ledger →
    Option (Ledger × Except PoolError Victim)
  | 0, _ => none
  | k + 1, l =>
    match l.revolve labels l.size false none with
    | (l, .found victim) => some (l, .ok victim)
    | (l, .passed true _) => goAround labels k l
    | (l, .passed false firstBusy) => some (l, l.spent firstBusy)

/-- What becomes of the frame that is chosen, and what is said of it. -/
inductive Taken (labels : Labels) (l : Ledger) (v : FrameNo) (l' : Ledger) : Victim → Prop
  | empty (ho : l.occupant? v = none) (left : l'.occupant? v = none) (table : l'.table = l.table) :
      Taken labels l v l' (.vacant v none)
  | clean {o : Occupant} (ho : l.occupant? v = some o) (hd : o.dirty = false)
      (left : l'.occupant? v = none) (table : l'.table = l.table.erase (o.key labels)) :
      Taken labels l v l' (.vacant v (some o.page))
  | dirty {o : Occupant} (ho : l.occupant? v = some o) (hd : o.dirty = true)
      (left : l'.occupant? v =
        some { o with referenced := false, dirty := false, io := .busy .writeBack })
      (table : l'.table = l.table) :
      Taken labels l v l' (.dirty ⟨o.file, o.page, v, l.generation v⟩)

/-- A sweep chooses frame `v`. Exactly the pages in the frames `us` have lost their reference bits,
and the other frames are as they were. -/
structure Chooses (labels : Labels) (l : Ledger) (us : List FrameNo) (v : FrameNo)
    (l' : Ledger) (r : Except PoolError Victim) : Prop where
  hand : l'.hand = v
  size : l'.size = l.size
  generation (j : FrameNo) : l'.generation j = l.generation j
  others {j : FrameNo} (hj : j ≠ v) :
    l'.occupant? j = if j ∈ us then (l.occupant? j).map (·.unreferenced) else l.occupant? j
  taken : ∃ victim, r = .ok victim ∧ l.Taken labels v l' victim

/-- A sweep chooses no frame. All pages have lost their reference bits, and the hand is back where
it was. -/
structure Spends (l l' : Ledger) : Prop where
  hand : l'.hand = l.hand
  size : l'.size = l.size
  table : l'.table = l.table
  generation (j : FrameNo) : l'.generation j = l.generation j
  occupant (j : FrameNo) : l'.occupant? j = (l.occupant? j).map (·.unreferenced)

/-! ### Frames in the order of the hand -/

theorem mem_order (hl : l.hand < l.size) : i ∈ l.order ↔ i < l.size := by
  refine ⟨fun hi => ?_, fun hi => mem_ahead hi hl (Nat.le_refl _)⟩
  obtain ⟨d, -, rfl⟩ := List.mem_map.1 hi
  exact Nat.mod_lt _ (Nat.zero_lt_of_lt hl)

theorem isOpen_iff : l.isOpen i = true ↔ ∀ o, l.occupant? i = some o → o.isEvictable = true := by
  rw [isOpen, Option.all_eq_true]

theorem isAvailable_of_occupant? {o : Occupant} (ho : l.occupant? i = some o) :
    l.isAvailable i = decide (o.standing = .available) := by
  rw [isAvailable, ho, Option.any_some]

theorem isUnpinned_of_occupant? {o : Occupant} (ho : l.occupant? i = some o) :
    l.isUnpinned i = decide (o.pins = 0) := by
  rw [isUnpinned, ho, Option.any_some]

theorem ahead_advance (l : Ledger) (n : Nat) :
    ahead l.size l.hand (n + 1) = l.advance.hand :: ahead l.size l.advance.hand n := ahead_succ ..

theorem exists_of_not_isOpen (h : l.isOpen i = false) :
    ∃ o, l.occupant? i = some o ∧ o.isEvictable = false := by
  cases ho : l.occupant? i with
  | none => simp [isOpen, ho] at h
  | some o => exact ⟨o, rfl, by simpa [isOpen, ho] using h⟩

theorem Occupant.isEvictable_unreferenced (o : Occupant) :
    o.unreferenced.isEvictable = decide (o.standing = .available) :=
  decide_eq_decide.2 (and_iff_left rfl)

section Tours

variable (tour : l.Tour us m)
include tour

theorem Tour.isAvailable_eq (j : FrameNo) : m.isAvailable j = l.isAvailable j := by
  rw [isAvailable, isAvailable, tour.occupant]
  split
  · cases l.occupant? j <;> rfl
  · rfl

theorem Tour.isUnpinned_eq (j : FrameNo) : m.isUnpinned j = l.isUnpinned j := by
  rw [isUnpinned, isUnpinned, tour.occupant]
  split
  · cases l.occupant? j <;> rfl
  · rfl

theorem Tour.isOpen_of_not_mem (hj : j ∉ us) : m.isOpen j = l.isOpen j := by
  rw [isOpen, isOpen, tour.occupant_of_not_mem hj]

theorem Tour.isOpen_of_mem (hj : j ∈ us) (closed : l.isOpen j = false) :
    m.isOpen j = l.isAvailable j := by
  obtain ⟨o, ho, -⟩ := exists_of_not_isOpen closed
  rw [isOpen, isAvailable, tour.occupant, if_pos hj, ho]
  exact Occupant.isEvictable_unreferenced o

end Tours

/-! ### One revolution -/

theorem visit_of_isOpen (labels : Labels) (hl : l.hand < l.size)
    (h : l.isOpen l.advance.hand = true) :
    ∃ victim l', l.visit labels = (l', .inl victim) ∧ l.Tour [l.advance.hand] l.advance ∧
      l.advance.Yields labels victim l' ∧ victim.frame = l.advance.hand ∧
      ∀ i, victim ≠ .busy i := by
  have hi : l.advance.hand < l.advance.size := hand_advance_lt (Nat.zero_lt_of_lt hl)
  have clear : ¬ l.Referenced l.advance.hand := by
    rintro ⟨o, ho, hr⟩
    have evictable := Occupant.isEvictable_iff.1 (isOpen_iff.1 h o ho)
    rw [evictable.2.2] at hr
    cases hr
  have tour := tour_advance clear
  unfold visit
  dsimp only
  split
  · next ho => exact ⟨_, _, rfl, tour, .vacant hi ho, rfl, by rintro i ⟨⟩⟩
  · next o ho =>
    have evictable := Occupant.isEvictable_iff.1 (isOpen_iff.1 h o ho)
    have available := Occupant.standing_eq_available.2 ⟨evictable.1, evictable.2.1⟩
    simp only [evictable.2.2, available, Bool.false_eq_true, if_false]
    split
    · next hd => exact ⟨_, _, rfl, tour, .claimed ho available hd, rfl, by rintro i ⟨⟩⟩
    · next hd =>
      exact ⟨_, _, rfl, tour, .evicted ho available (Bool.eq_false_iff.2 hd), rfl, by rintro i ⟨⟩⟩

theorem visit_of_not_isOpen (labels : Labels) {o : Occupant}
    (ho : l.occupant? l.advance.hand = some o) (h : o.isEvictable = false) :
    ∃ m, l.visit labels = (m, .inr o.standing) ∧ m.hand = l.advance.hand ∧
      l.Tour [l.advance.hand] m := by
  have ho' : l.advance.occupant? l.advance.hand = some o := ho
  unfold visit
  simp only [ho']
  by_cases hr : o.referenced = true
  · rw [if_pos hr]
    exact ⟨_, rfl, rfl, tour_spare ho⟩
  · rw [if_neg hr]
    have clear : ¬ l.Referenced l.advance.hand := by
      rintro ⟨p, hp, hr'⟩
      obtain rfl := Option.some.inj (ho.symm.trans hp)
      exact hr hr'
    have taken : o.standing ≠ .available := by
      intro hs
      simp [Occupant.isEvictable, hs, hr] at h
    split
    · next hs => exact (taken hs).elim
    · exact ⟨_, rfl, rfl, tour_advance clear⟩

theorem revolve_of_isOpen (labels : Labels) {n : Nat} (available : Bool)
    (firstBusy : Option FrameNo) (hl : l.hand < l.size) (hn : n ≤ l.size)
    (way : ahead l.size l.hand n = us ++ v :: ws)
    (closed : ∀ j ∈ us, l.isOpen j = false) (found : l.isOpen v = true) :
    ∃ victim m l', l.revolve labels n available firstBusy = (l', .found victim) ∧
      l.Tour (us ++ [v]) m ∧ m.Yields labels victim l' ∧ victim.frame = v ∧
      ∀ i, victim ≠ .busy i := by
  induction us generalizing l n available firstBusy with
  | nil =>
    cases n with
    | zero => cases way
    | succ n =>
      rw [ahead_advance] at way
      obtain rfl : l.advance.hand = v := (List.cons.inj way).1
      obtain ⟨victim, l', hv, tour, yields, frame, moved⟩ :=
        visit_of_isOpen labels hl found
      rw [revolve, hv]
      exact ⟨victim, _, l', rfl, tour, yields, frame, moved⟩
  | cons i us ih =>
    cases n with
    | zero => cases way
    | succ n =>
      have once := nodup_ahead l.hand hn
      rw [way] at once
      have apart := (List.nodup_cons.1 once).1
      rw [ahead_advance] at way
      obtain ⟨first, way⟩ := List.cons.inj way
      obtain rfl := first
      obtain ⟨o, ho, evictable⟩ := exists_of_not_isOpen (closed _ List.mem_cons_self)
      obtain ⟨m, hv, hand, tour⟩ := visit_of_not_isOpen labels ho evictable
      -- The rest of the way is as it was, because this frame does not come again.
      have same {j : FrameNo} (hj : j ∈ us ++ v :: ws) : m.isOpen j = l.isOpen j :=
        tour.isOpen_of_not_mem fun h => apart (List.mem_singleton.1 h ▸ hj)
      have rest : ahead m.size m.hand n = us ++ v :: ws := by rwa [tour.size, hand]
      have further (a : Bool) (b : Option FrameNo) := ih a b (tour.hand_lt hl)
        (tour.size ▸ Nat.le_of_succ_le hn) rest
        (fun j hj =>
          (same (List.mem_append_left _ hj)).trans (closed j (List.mem_cons_of_mem _ hj)))
        ((same (List.mem_append_right _ List.mem_cons_self)).trans found)
      have onward (a : Bool) (b : Option FrameNo) : ∃ victim m' l',
          m.revolve labels n a b = (l', .found victim) ∧ l.Tour (l.advance.hand :: us ++ [v]) m' ∧
            m'.Yields labels victim l' ∧ victim.frame = v ∧ ∀ i, victim ≠ .busy i := by
        obtain ⟨victim, m', l', hr, tour', yields, frame, moved⟩ := further a b
        exact ⟨victim, m', l', hr, tour.trans tour', yields, frame, moved⟩
      rw [revolve, hv]
      cases o.standing with
      | available | busy | pinned => exact onward _ _

theorem revolve_of_not_isOpen (labels : Labels) {n : Nat} (available : Bool)
    (firstBusy : Option FrameNo) (hl : l.hand < l.size) (hn : n ≤ l.size)
    (closed : ∀ j ∈ ahead l.size l.hand n, l.isOpen j = false) :
    ∃ l', l.Tour (ahead l.size l.hand n) l' ∧
      l.revolve labels n available firstBusy = (l', .passed
        (available || (ahead l.size l.hand n).any l.isAvailable)
        (firstBusy <|> (ahead l.size l.hand n).find? fun i =>
          l.isUnpinned i && !l.isAvailable i)) := by
  induction n generalizing l available firstBusy with
  | zero => exact ⟨l, .refl hl, by simp [revolve, ahead]⟩
  | succ n ih =>
    have once := nodup_ahead l.hand hn
    rw [ahead_advance] at closed once ⊢
    obtain ⟨o, ho, evictable⟩ := exists_of_not_isOpen (closed _ List.mem_cons_self)
    obtain ⟨m, hv, hand, tour⟩ := visit_of_not_isOpen labels ho evictable
    have rest : ahead m.size m.hand n = ahead l.size l.advance.hand n := by rw [tour.size, hand]
    have apart : ∀ j ∈ ahead l.size l.advance.hand n, j ≠ l.advance.hand := fun j hj same =>
      (List.nodup_cons.1 once).1 (same ▸ hj)
    have onward (a : Bool) (b : Option FrameNo) := by
      refine ih a b (l := m) (tour.hand_lt hl) (tour.size ▸ Nat.le_of_succ_le hn) fun j hj => ?_
      rw [rest] at hj
      rw [tour.isOpen_of_not_mem fun h => apart j hj (List.mem_singleton.1 h)]
      exact closed j (List.mem_cons_of_mem _ hj)
    simp only [rest, funext tour.isAvailable_eq, funext tour.isUnpinned_eq] at onward
    rw [revolve, hv, List.any_cons, List.find?_cons, isAvailable_of_occupant? ho,
      isUnpinned_of_occupant? ho]
    cases hs : o.standing with
    | available =>
      obtain ⟨l', tour', hr⟩ := onward true firstBusy
      exact ⟨l', tour.trans tour', by simpa using hr⟩
    | busy =>
      obtain ⟨l', tour', hr⟩ := onward available (firstBusy <|> some m.hand)
      have pins := (Occupant.standing_eq_busy.1 hs).1
      refine ⟨l', tour.trans tour', ?_⟩
      cases firstBusy <;> simpa [pins, hand] using hr
    | pinned =>
      obtain ⟨l', tour', hr⟩ := onward available firstBusy
      have pins := Occupant.standing_eq_pinned.1 hs
      exact ⟨l', tour.trans tour', by simpa [pins] using hr⟩

/-! ### The end of a sweep -/

theorem Tour.hand_last (tour : l.Tour (us ++ [v]) m) : m.hand = v := by
  obtain ⟨-, last⟩ := ahead_eq_append tour.path.symm
  rw [tour.hand, List.length_append, ← Nat.add_assoc, ← Nat.mod_add_mod]
  exact (List.cons.inj last).1.symm

theorem Tour.hand_back (hl : l.hand < l.size) (tour : l.Tour l.order m) : m.hand = l.hand := by
  rw [tour.hand, order, length_ahead, Nat.add_mod_right, Nat.mod_eq_of_lt hl]

/-- A sweep whose way goes past the frames `ws` and finds a victim in frame `v` chooses `v`,
provided that the pages with cleared bits are those in `ws`, leaving `v` aside. -/
theorem Tour.chooses {victim : Victim} (tour : l.Tour (ws ++ [v]) m)
    (yields : m.Yields labels victim l') (frame : victim.frame = v) (moved : ∀ i, victim ≠ .busy i)
    (passed : ∀ j ≠ v, j ∈ ws ↔ j ∈ us) : l.Chooses labels us v l' (.ok victim) := by
  have others {j : FrameNo} (hj : v ≠ j) :
      m.occupant? j = if j ∈ us then (l.occupant? j).map (·.unreferenced) else l.occupant? j := by
    simp only [tour.occupant, List.mem_append, List.mem_singleton, passed j hj.symm,
      or_iff_left hj.symm]
  have found : m.occupant? v = (l.occupant? v).map (·.unreferenced) :=
    (tour.occupant v).trans (if_pos (List.mem_append_right _ List.mem_cons_self))
  cases yields with
  | @vacant i hi ho =>
    obtain rfl : v = i := frame.symm
    exact ⟨tour.hand_last, tour.size, tour.generation, fun hj => others hj.symm, _, rfl,
      .empty (Option.map_eq_none_iff.1 (found.symm.trans ho)) ho tour.table⟩
  | @evicted i o ho hs hd =>
    obtain rfl : v = i := frame.symm
    have hi := lt_size_of_occupant? ho
    obtain ⟨p, hp, rfl⟩ := Option.map_eq_some_iff.1 (found.symm.trans ho)
    have left : (m.vacate v (p.key labels)).occupant? v = none :=
      (occupant?_vacate hi ..).trans (if_pos rfl)
    refine ⟨tour.hand_last, (size_vacate ..).trans tour.size,
      fun j => (generation_vacate ..).trans (tour.generation j), fun {j} hj => ?_, _, rfl,
      .clean (o := p) hp hd left (congrArg (·.erase (p.key labels)) tour.table)⟩
    rw [occupant?_vacate hi, if_neg hj.symm]
    exact others hj.symm
  | @claimed i o ho hs hd =>
    obtain rfl : v = i := frame.symm
    have hi := lt_size_of_occupant? ho
    obtain ⟨p, hp, rfl⟩ := Option.map_eq_some_iff.1 (found.symm.trans ho)
    have left : (m.setOccupant v p.unreferenced.claimed).occupant? v =
        some { p with referenced := false, dirty := false, io := .busy .writeBack } :=
      (occupant?_setOccupant hi ..).trans (if_pos rfl)
    have stay : m.stayOf v p.unreferenced = ⟨p.file, p.page, v, l.generation v⟩ :=
      congrArg (Stay.mk p.file p.page v) (tour.generation v)
    rw [stay]
    refine ⟨tour.hand_last, (size_setOccupant ..).trans tour.size,
      fun j => (generation_setOccupant ..).trans (tour.generation j), fun {j} hj => ?_, _, rfl,
      .dirty (o := p) hp hd left tour.table⟩
    rw [occupant?_setOccupant hi, if_neg hj.symm]
    exact others hj.symm
  | busy => exact (moved _ rfl).elim

/-- The first revolution finds an open frame. -/
theorem sweep_of_isOpen (labels : Labels) (hl : l.hand < l.size)
    (first : l.order.find? l.isOpen = some v) :
    (∀ k, l.goAround labels (k + 2) = some (l.sweep labels)) ∧
      l.Chooses labels (l.order.takeWhile (· ≠ v)) v (l.sweep labels).1 (l.sweep labels).2 := by
  obtain ⟨found, us, ws, way, closed⟩ := List.find?_eq_some_iff_append.1 first
  obtain ⟨victim, m, l', hr, tour, yields, frame, moved⟩ := revolve_of_isOpen labels false none hl
    (Nat.le_refl _) way (by simpa using closed) found
  have once : (us ++ v :: ws).Nodup := way ▸ nodup_ahead l.hand (Nat.le_refl _)
  have before : (us ++ v :: ws).takeWhile (· ≠ v) = us := by
    have apart := List.disjoint_of_nodup_append once
    rw [List.takeWhile_append_of_pos, List.takeWhile_cons_of_neg (by simp), List.append_nil]
    exact fun j hj => decide_eq_true fun same => apart hj (same ▸ List.mem_cons_self)
  have swept : l.sweep labels = (l', .ok victim) := by rw [sweep, hr]
  rw [swept, way, before]
  exact ⟨fun k => by rw [goAround, hr], tour.chooses yields frame moved fun _ _ => .rfl⟩

/-- The first revolution finds no open frame, but it spares an available page. -/
theorem sweep_of_isAvailable (labels : Labels) (hl : l.hand < l.size)
    (closed : l.order.find? l.isOpen = none) (first : l.order.find? l.isAvailable = some v) :
    (∀ k, l.goAround labels (k + 2) = some (l.sweep labels)) ∧
      l.Chooses labels l.order v (l.sweep labels).1 (l.sweep labels).2 := by
  have closed : ∀ j ∈ l.order, l.isOpen j = false := by simpa using List.find?_eq_none.1 closed
  obtain ⟨found, us, ws, way, passed⟩ := List.find?_eq_some_iff_append.1 first
  obtain ⟨m, tour, hr⟩ := revolve_of_not_isOpen labels false none hl (Nat.le_refl _) closed
  have spared : l.order.any l.isAvailable = true :=
    List.any_eq_true.2 ⟨v, List.mem_of_find?_eq_some first, found⟩
  rw [← order, spared, Bool.or_true] at hr
  -- The second revolution goes the same way, and now every available page is without its bit.
  have back : m.hand = l.hand := tour.hand_back hl
  have again : ahead m.size m.hand m.size = us ++ v :: ws := by rw [tour.size, back, ← way]; rfl
  have opened {j : FrameNo} (hj : j ∈ us ++ v :: ws) : m.isOpen j = l.isAvailable j := by
    rw [← way] at hj
    exact tour.isOpen_of_mem hj (closed j hj)
  obtain ⟨victim, m', l', hr', tour', yields, frame, moved⟩ := revolve_of_isOpen labels false none
    (tour.hand_lt hl) (Nat.le_refl _) again
    (fun j hj => (opened (List.mem_append_left _ hj)).trans (by simpa using passed j hj))
    ((opened (List.mem_append_right _ List.mem_cons_self)).trans found)
  have twice : l.Tour ((l.order ++ us) ++ [v]) m' := List.append_assoc .. ▸ tour.trans tour'
  have swept : l.sweep labels = (l', .ok victim) := by rw [sweep, hr]; simp only [hr']
  rw [swept]
  refine ⟨fun k => by rw [goAround, hr]; simp only [goAround, hr'],
    twice.chooses yields frame moved fun j _ => ?_⟩
  rw [List.mem_append, way, List.mem_append]
  exact ⟨fun hj => hj.elim id .inl, .inl⟩

/-- The first revolution finds neither an open frame nor an available page. -/
theorem sweep_of_not_isAvailable (labels : Labels) (hl : l.hand < l.size)
    (closed : l.order.find? l.isOpen = none) (shut : l.order.find? l.isAvailable = none) :
    (∀ k, l.goAround labels (k + 2) = some (l.sweep labels)) ∧ l.Spends (l.sweep labels).1 ∧
      (l.sweep labels).2 = l.spent (l.order.find? l.isUnpinned) := by
  have closed : ∀ j ∈ l.order, l.isOpen j = false := by simpa using List.find?_eq_none.1 closed
  have shut : ∀ j ∈ l.order, l.isAvailable j = false := by simpa using List.find?_eq_none.1 shut
  obtain ⟨m, tour, hr'⟩ := revolve_of_not_isOpen labels false none hl (Nat.le_refl _) closed
  have nothing : l.order.any l.isAvailable = false := List.any_eq_false.2 (by simpa using shut)
  have busy : (l.order.find? fun i => l.isUnpinned i && !l.isAvailable i) =
      l.order.find? l.isUnpinned :=
    List.find?_congr fun j hj => by rw [shut j hj]; simp
  have hr : l.revolve labels l.size false none =
      (m, .passed false (l.order.find? l.isUnpinned)) := by
    rw [hr', ← order, nothing, busy]
    rfl
  have swept : l.sweep labels = (m, m.spent (l.order.find? l.isUnpinned)) := by rw [sweep, hr]
  have same (b : Option FrameNo) : m.spent b = l.spent b := by
    cases b with
    | none => rw [spent, spent, tour.size]
    | some i => rfl
  rw [swept, same]
  refine ⟨fun k => by rw [goAround, hr, ← same], ⟨tour.hand_back hl, tour.size, tour.table,
    tour.generation, fun j => ?_⟩, rfl⟩
  rw [tour.occupant]
  split
  · rfl
  · next hj =>
    cases ho : l.occupant? j with
    | none => rfl
    | some o => exact (hj ((mem_order hl).2 (lt_size_of_occupant? ho))).elim

theorem Yields.consistent {victim : Victim} (yields : l.Yields labels victim l')
    (agree : l.Consistent labels) : l'.Consistent labels := by
  cases yields with
  | vacant | busy => exact agree
  | evicted ho => exact agree.vacate ho
  | claimed ho => exact agree.setOccupant ho rfl

theorem Consistent.sweep (agree : l.Consistent labels) : (l.sweep labels).1.Consistent labels := by
  rcases sweep_cases agree.size_pos (rfl : l.sweep labels = (_, _)) with
    ⟨v, m, -, cooled, yields⟩ | ⟨-, cooled⟩
  · exact yields.consistent (agree.cooled cooled)
  · exact agree.cooled cooled

/-- Which frame a sweep chooses: the first open frame; if there is none, the first one whose page is
available; and otherwise none, but a page that nobody has is worth waiting for. The loop never takes
more than two revolutions, and the page table goes on to agree with the frames. -/
theorem sweep_chooses (agree : l.Consistent labels) :
    (∀ k, l.goAround labels (k + 2) = some (l.sweep labels)) ∧
      (l.sweep labels).1.Consistent labels ∧
      match l.order.find? l.isOpen, l.order.find? l.isAvailable, l.order.find? l.isUnpinned with
      | some v, _, _ =>
        l.Chooses labels (l.order.takeWhile (· ≠ v)) v (l.sweep labels).1 (l.sweep labels).2
      | none, some v, _ => l.Chooses labels l.order v (l.sweep labels).1 (l.sweep labels).2
      | none, none, some i => l.Spends (l.sweep labels).1 ∧ (l.sweep labels).2 = .ok (.busy i)
      | none, none, none =>
        l.Spends (l.sweep labels).1 ∧ (l.sweep labels).2 = .error (.exhausted l.size) := by
  cases opened : l.order.find? l.isOpen with
  | some v =>
    obtain ⟨ends, chooses⟩ := sweep_of_isOpen labels agree.hand_lt opened
    exact ⟨ends, agree.sweep, chooses⟩
  | none =>
    cases available : l.order.find? l.isAvailable with
    | some v =>
      obtain ⟨ends, chooses⟩ :=
        sweep_of_isAvailable labels agree.hand_lt opened available
      exact ⟨ends, agree.sweep, chooses⟩
    | none =>
      obtain ⟨ends, spends, result⟩ :=
        sweep_of_not_isAvailable labels agree.hand_lt opened available
      refine ⟨ends, agree.sweep, ?_⟩
      rw [result]
      cases l.order.find? l.isUnpinned with
      | some i => exact ⟨spends, rfl⟩
      | none => exact ⟨spends, rfl⟩

/-- One frame holds a dirty page that was used lately, the other one a page that somebody has. The
first page is spared once, and taken when the hand comes by again. -/
theorem sweep_chooses_spared :
    let labels : Labels := fun file => ⟨⟨file⟩, "pages"⟩
    let l := (((Ledger.new 2).install 0 (labels.key 0 7) 0 7).setOccupant 0
      ⟨0, 7, 0, true, true, .idle⟩).install 1 (labels.key 0 8) 0 8
    l.Consistent labels ∧ l.Chooses labels [0, 1] 0 (l.sweep labels).1 (l.sweep labels).2 := by
  intro labels l
  have agree : l.Consistent labels := by
    have empty : (Ledger.new 2).Consistent labels := .new (by decide)
    have one : ((Ledger.new 2).install 0 (labels.key 0 7) 0 7).Consistent labels :=
      empty.install (by decide) (occupant?_new ..) rfl
    have idle := one.setOccupant (i := 0) (p := ⟨0, 7, 0, true, true, .idle⟩) rfl rfl
    exact idle.install (i := 1) (by decide) rfl (by decide)
  have opened : l.order.find? l.isOpen = none := by decide
  have available : l.order.find? l.isAvailable = some 0 := by decide
  have order : l.order = [0, 1] := by decide
  have chooses := (sweep_chooses agree).2.2
  rw [opened, available] at chooses
  have chooses : l.Chooses labels l.order 0 (l.sweep labels).1 (l.sweep labels).2 := chooses
  exact ⟨agree, order ▸ chooses⟩

end Ledger

end SecondChance
