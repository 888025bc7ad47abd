import SecondChance.Proofs.Ledger.Search

/-!
Which frames the hand visits.

The hand goes from every frame to the next, so where it comes by is known from where it stands and
how far it goes. Where it goes past a page, the page loses its reference bit, and nothing else
happens. What `Search` says of the end of a sweep is said here once more together with the way
there: a page is replaced only if its reference bit was clear before the sweep, or if the sweep has
come by before; and a sweep that gives up has found somebody in every frame who is pinned.
-/

namespace SecondChance

/-! ### Around and around -/

/-- The next `k` frames behind frame `hand`, around and around in a pool of `n`. -/
def ahead (n : Nat) (hand : FrameNo) (k : Nat) : List FrameNo :=
  (List.range k).map fun d => (hand + 1 + d) % n

section Ahead

variable {n hand k i j : Nat}

@[simp] theorem length_ahead (n hand k : Nat) : (ahead n hand k).length = k := by
  simp [ahead]

theorem ahead_add (n hand j k : Nat) :
    ahead n hand (j + k) = ahead n hand j ++ ahead n ((hand + j) % n) k := by
  rw [ahead, List.range_add, List.map_append, List.map_map]
  refine congrArg (ahead n hand j ++ ·) (List.map_congr_left fun d _ => ?_)
  show (hand + 1 + (j + d)) % n = ((hand + j) % n + 1 + d) % n
  rw [Nat.add_assoc (_ % n), Nat.mod_add_mod]
  congr 1
  omega

theorem ahead_succ (n hand k : Nat) :
    ahead n hand (k + 1) = (hand + 1) % n :: ahead n ((hand + 1) % n) k := by
  rw [Nat.add_comm, ahead_add]
  rfl

theorem ahead_eq_append {xs ys : List FrameNo} (h : ahead n hand k = xs ++ ys) :
    xs = ahead n hand xs.length ∧ ys = ahead n ((hand + xs.length) % n) ys.length := by
  have hk : k = xs.length + ys.length := by simpa using congrArg List.length h
  rw [hk, ahead_add] at h
  obtain ⟨hx, hy⟩ := List.append_inj h (length_ahead ..)
  exact ⟨hx.symm, hy.symm⟩

theorem mem_ahead (hj : j < n) (hh : hand < n) (hk : n ≤ k) : j ∈ ahead n hand k := by
  refine List.mem_map.2 ?_
  by_cases h : hand < j
  · refine ⟨j - hand - 1, List.mem_range.2 (by omega), ?_⟩
    rw [show hand + 1 + (j - hand - 1) = j by omega, Nat.mod_eq_of_lt hj]
  · refine ⟨n + j - hand - 1, List.mem_range.2 (by omega), ?_⟩
    rw [show hand + 1 + (n + j - hand - 1) = n + j by omega, Nat.add_mod_left, Nat.mod_eq_of_lt hj]

/-- Between two visits of a frame all others are visited. -/
theorem mem_of_ahead_eq {a b c : List FrameNo} (h : ahead n hand k = a ++ i :: (b ++ i :: c))
    (hj : j < n) (hne : j ≠ i) : j ∈ b := by
  have hi : i < n := by
    have hm : i ∈ ahead n hand k := h ▸ List.mem_append_right a List.mem_cons_self
    obtain ⟨d, -, rfl⟩ := List.mem_map.1 hm
    exact Nat.mod_lt _ (Nat.zero_lt_of_lt hj)
  -- The way from the first visit to the second, and the second visit.
  have onward : ahead n i (b ++ i :: c).length = b ++ i :: c := by
    have ⟨_, h⟩ := ahead_eq_append h
    rw [List.length_cons, ahead_succ] at h
    obtain ⟨hfirst, h⟩ := List.cons.inj h
    rw [← hfirst] at h
    exact h.symm
  obtain ⟨hb, hc⟩ := ahead_eq_append onward
  rw [List.length_cons, ahead_succ] at hc
  have second : ((i + b.length) % n + 1) % n = i := (List.cons.inj hc).1.symm
  have around : n ≤ b.length + 1 := by
    rw [Nat.mod_add_mod, Nat.add_assoc] at second
    have hz := Nat.sub_mod_eq_zero_of_mod_eq (second.trans (Nat.mod_eq_of_lt hi).symm)
    rw [Nat.add_sub_cancel_left] at hz
    exact Nat.le_of_dvd (Nat.succ_pos _) (Nat.dvd_of_mod_eq_zero hz)
  have hm := mem_ahead hj hi around
  rw [ahead_add, ← hb, ahead_succ, second] at hm
  rcases List.mem_append.1 hm with hm | hm
  · exact hm
  · exact (hne (List.mem_singleton.1 hm)).elim

end Ahead

def Victim.frame : Victim → FrameNo
  | .vacant i _ | .busy i => i
  | .dirty stay => stay.frame

theorem Occupant.unreferenced_of_clear {o : Occupant} (h : o.referenced = false) :
    o.unreferenced = o := by
  cases o
  cases h
  rfl

namespace Ledger

/-! ### Where the hand comes by -/

def revolveVisits (labels : Labels) : (n : Nat) → Ledger → List FrameNo
  | 0, _ => []
  | n + 1, l =>
    match l.visit labels with
    | (l, .inl _) => [l.hand]
    | (l, .inr _) => l.hand :: revolveVisits labels n l

def sweepVisits (labels : Labels) (l : Ledger) : List FrameNo :=
  match l.revolve labels l.size false none with
  | (m, .passed true _) => l.revolveVisits labels l.size ++ m.revolveVisits labels m.size
  | _ => l.revolveVisits labels l.size

def acquireVisits (labels : Labels) (l : Ledger) (file : FileNo) (page : PageNo)
    (written : Option Stay) : List FrameNo :=
  match l.table.find? (labels.key file page), written.bind (l.reclaim? labels) with
  | none, none => l.sweepVisits labels
  | _, _ => []

/-! ### What it leaves behind -/

/-- `l'` is `l` after the hand has visited the frames `vs` and gone past them. -/
structure Tour (l : Ledger) (vs : List FrameNo) (l' : Ledger) : Prop where
  table : l'.table = l.table
  size : l'.size = l.size
  generation (j : FrameNo) : l'.generation j = l.generation j
  occupant (j : FrameNo) :
    l'.occupant? j = if j ∈ vs then (l.occupant? j).map (·.unreferenced) else l.occupant? j
  path : vs = ahead l.size l.hand vs.length
  hand : l'.hand = (l.hand + vs.length) % l.size

def Pinned (l : Ledger) (i : FrameNo) : Prop := ∃ o, l.occupant? i = some o ∧ o.pins ≠ 0

def Referenced (l : Ledger) (i : FrameNo) : Prop :=
  ∃ o, l.occupant? i = some o ∧ o.referenced = true

namespace Tour

variable {l m l' : Ledger} {us vs : List FrameNo} {i j : FrameNo} {o : Occupant}

theorem refl (h : l.hand < l.size) : l.Tour [] l where
  table := rfl
  size := rfl
  generation _ := rfl
  occupant _ := rfl
  path := rfl
  hand := (Nat.mod_eq_of_lt h).symm

theorem trans (h : l.Tour us m) (h' : m.Tour vs l') : l.Tour (us ++ vs) l' where
  table := h'.table.trans h.table
  size := h'.size.trans h.size
  generation j := (h'.generation j).trans (h.generation j)
  occupant j := by
    rw [h'.occupant, h.occupant]
    by_cases hu : j ∈ us
    · rw [if_pos hu, if_pos (List.mem_append_left vs hu), Option.map_map]
      exact ite_self _
    · simp only [List.mem_append, hu, false_or, if_false]
  path := by
    have hp := h'.path
    rw [h.size, h.hand] at hp
    rw [List.length_append, ahead_add, ← h.path, ← hp]
  hand := by
    rw [h'.hand, h.size, h.hand, List.length_append, Nat.mod_add_mod, Nat.add_assoc]

theorem hand_lt (h : l.Tour vs l') (hl : l.hand < l.size) : l'.hand < l'.size := by
  rw [h.hand, h.size]
  exact Nat.mod_lt _ (Nat.zero_lt_of_lt hl)

theorem occupant_of_not_mem (h : l.Tour vs l') (hj : j ∉ vs) : l'.occupant? j = l.occupant? j := by
  rw [h.occupant, if_neg hj]

theorem before (h : l.Tour vs l') (ho : l'.occupant? j = some o) :
    ∃ p, l.occupant? j = some p ∧ o = if j ∈ vs then p.unreferenced else p := by
  rw [h.occupant] at ho
  split at ho
  · next hj =>
    obtain ⟨p, hp, rfl⟩ := Option.map_eq_some_iff.1 ho
    exact ⟨p, hp, (if_pos hj).symm⟩
  · next hj => exact ⟨o, ho, (if_neg hj).symm⟩

theorem after (h : l.Tour vs l') (ho : l.occupant? j = some o) :
    l'.occupant? j = some (if j ∈ vs then o.unreferenced else o) := by
  rw [h.occupant, ho]
  split <;> rfl

theorem pinned (h : l.Tour vs l') (hp : l'.Pinned j) : l.Pinned j := by
  obtain ⟨o, ho, hp⟩ := hp
  obtain ⟨p, hp', rfl⟩ := h.before ho
  refine ⟨p, hp', ?_⟩
  split at hp <;> exact hp

theorem referenced (h : l.Tour vs l') (hr : l'.Referenced j) : l.Referenced j ∧ j ∉ vs := by
  obtain ⟨o, ho, hr⟩ := hr
  obtain ⟨p, hp, rfl⟩ := h.before ho
  split at hr
  · cases hr
  · next hj => exact ⟨⟨p, hp, hr⟩, hj⟩

/-- After a full revolution no reference bit is set. -/
theorem not_referenced (h : l.Tour vs l') (hl : l.hand < l.size) (hv : l.size ≤ vs.length) :
    ¬ l'.Referenced j := by
  intro hr
  obtain ⟨⟨o, ho, -⟩, hj⟩ := h.referenced hr
  rw [h.path] at hj
  exact hj (mem_ahead (lt_size_of_occupant? ho) hl hv)

end Tour

theorem ahead_one (l : Ledger) : [l.advance.hand] = ahead l.size l.hand 1 := rfl

theorem tour_advance {l : Ledger} (h : ¬ l.Referenced l.advance.hand) :
    l.Tour [l.advance.hand] l.advance where
  table := rfl
  size := rfl
  generation _ := rfl
  occupant j := by
    show l.occupant? j = _
    split
    · next hj =>
      obtain rfl := List.mem_singleton.1 hj
      cases ho : l.occupant? l.advance.hand with
      | none => rfl
      | some o =>
        have hc : o.referenced = false := Bool.eq_false_iff.2 fun hr => h ⟨o, ho, hr⟩
        rw [Option.map_some, Occupant.unreferenced_of_clear hc]
    · rfl
  path := l.ahead_one
  hand := rfl

theorem tour_spare {l : Ledger} {o : Occupant} (ho : l.occupant? l.advance.hand = some o) :
    l.Tour [l.advance.hand] (l.advance.setOccupant l.advance.hand o.unreferenced) where
  table := rfl
  size := size_setOccupant ..
  generation _ := generation_setOccupant ..
  occupant j := by
    rw [occupant?_setOccupant (lt_size_of_occupant? (l := l.advance) ho)]
    by_cases hj : l.advance.hand = j
    · subst hj
      rw [if_pos rfl, if_pos (List.mem_singleton_self _), ho]
      rfl
    · rw [if_neg hj, if_neg fun hm => hj (List.mem_singleton.1 hm).symm]
      rfl
  path := l.ahead_one
  hand := rfl

/-! ### What it finds -/

/-- The hand finds a victim on its way past the frames `vs`, the last of which is the victim's. The
reference bit of the victim was clear from the beginning, or the hand has come by before. -/
structure Finds (labels : Labels) (l : Ledger) (vs : List FrameNo) (v : Victim) (l' : Ledger) :
    Prop where
  found : ∃ us m, vs = us ++ [v.frame] ∧ (v.frame ∈ us ∨ ¬ l.Referenced v.frame) ∧
    l.Tour vs m ∧ m.Yields labels v l'

theorem Tour.finds {labels : Labels} {l m l' : Ledger} {us vs : List FrameNo} {v : Victim}
    (h : l.Tour us m) (hf : m.Finds labels vs v l') : l.Finds labels (us ++ vs) v l' := by
  obtain ⟨ws, m', rfl, hc, tour, yields⟩ := hf.found
  refine ⟨us ++ ws, m', (List.append_assoc ..).symm, ?_, h.trans tour, yields⟩
  by_cases hu : v.frame ∈ us
  · exact .inl (List.mem_append_left ws hu)
  · refine hc.imp (List.mem_append_right us) fun hr hl => hr ?_
    obtain ⟨o, ho, hr⟩ := hl
    exact ⟨o, (h.occupant_of_not_mem hu).trans ho, hr⟩

theorem Finds.vacant {labels : Labels} {l l' : Ledger} {vs : List FrameNo} {i : FrameNo}
    {left : Option PageNo} (h : l.Finds labels vs (.vacant i left) l') :
    i < l'.size ∧ l'.occupant? i = none := by
  obtain ⟨_, m, -, -, -, yields⟩ := h.found
  cases yields with
  | vacant hi ho => exact ⟨hi, ho⟩
  | evicted ho =>
    have hi := lt_size_of_occupant? ho
    rw [size_vacate, occupant?_vacate hi, if_pos rfl]
    exact ⟨hi, rfl⟩

/-- A visit finds a victim whose reference bit is clear, or goes past a frame. A frame that is
empty, or whose page nobody has and is not being moved, is passed only if the page is spared. -/
theorem visit_tours {labels : Labels} {l l' : Ledger} {r : Victim ⊕ Standing} (hl : l.hand < l.size)
    (h : l.visit labels = (l', r)) :
    (∃ v, r = .inl v ∧ l.Finds labels [l'.hand] v l') ∨
      ∃ st, r = .inr st ∧ l.Tour [l'.hand] l' ∧ (st = .pinned → l.Pinned l'.hand) ∧
        (st = .available → l.Referenced l'.hand) := by
  have hi : l.advance.hand < l.advance.size := hand_advance_lt (Nat.zero_lt_of_lt hl)
  have find {v : Victim} (hv : v.frame = l.advance.hand) (hr : ¬ l.Referenced l.advance.hand)
      (hy : l.advance.Yields labels v l') : l.Finds labels [l.advance.hand] v l' := by
    refine ⟨[], l.advance, ?_, .inr (hv ▸ hr), tour_advance hr, hy⟩
    rw [hv]
    rfl
  unfold visit at h
  simp only at h
  split at h
  · next ho =>
    obtain ⟨rfl, rfl⟩ := Prod.mk.inj h
    refine .inl ⟨_, rfl, find rfl (fun ⟨o, ho', _⟩ => ?_) (.vacant hi ho)⟩
    exact Option.some_ne_none o (ho'.symm.trans ho)
  · next o ho =>
    have referenced : l.Referenced l.advance.hand ↔ o.referenced = true := by
      refine ⟨fun ⟨p, hp, hr⟩ => ?_, fun hr => ⟨o, ho, hr⟩⟩
      obtain rfl := Option.some.inj (hp.symm.trans ho)
      exact hr
    have pinned (hs : o.standing = .pinned) : l.Pinned l.advance.hand :=
      ⟨o, ho, Occupant.standing_eq_pinned.1 hs⟩
    split at h
    · next hr =>
      obtain ⟨rfl, rfl⟩ := Prod.mk.inj h
      exact .inr ⟨_, rfl, tour_spare ho, pinned, fun _ => referenced.2 hr⟩
    · next hr =>
      have clear : ¬ l.Referenced l.advance.hand := mt referenced.1 hr
      split at h
      · next hs =>
        split at h
        · next hd =>
          obtain ⟨rfl, rfl⟩ := Prod.mk.inj h
          exact .inl ⟨_, rfl, find rfl clear (.claimed ho hs hd)⟩
        · next hd =>
          obtain ⟨rfl, rfl⟩ := Prod.mk.inj h
          exact .inl ⟨_, rfl, find rfl clear (.evicted ho hs (by simpa using hd))⟩
      · next hs =>
        obtain ⟨rfl, rfl⟩ := Prod.mk.inj h
        exact .inr ⟨_, rfl, tour_advance clear, pinned, fun ha => (hs ha).elim⟩

/-- The hand finds nothing on its way past the frames `vs`. Unless there is a busy frame among them,
somebody has each page that was passed, or it was spared and is said to be available. -/
structure Passes (l : Ledger) (vs : List FrameNo) (available : Bool) (firstBusy : Option FrameNo)
    (l' : Ledger) : Prop where
  tour : l.Tour vs l'
  stood : firstBusy = none → ∀ i ∈ vs, l.Pinned i ∨ (available = true ∧ l.Referenced i)

theorem Passes.cons {l m l' : Ledger} {vs : List FrameNo} {available : Bool}
    {firstBusy : Option FrameNo} (h : m.Passes vs available firstBusy l') {i : FrameNo}
    (tour : l.Tour [i] m)
    (stood : firstBusy = none → l.Pinned i ∨ (available = true ∧ l.Referenced i)) :
    l.Passes (i :: vs) available firstBusy l' where
  tour := tour.trans h.tour
  stood hb j hj := by
    rcases List.mem_cons.1 hj with rfl | hj
    · exact stood hb
    · exact (h.stood hb j hj).imp tour.pinned fun hr => ⟨hr.1, (tour.referenced hr.2).1⟩

theorem revolve_tours {labels : Labels} {n : Nat} {l l' : Ledger} {available : Bool}
    {firstBusy : Option FrameNo} {r : Round} (hl : l.hand < l.size)
    (h : l.revolve labels n available firstBusy = (l', r)) :
    (∃ v, r = .found v ∧ l.Finds labels (l.revolveVisits labels n) v l') ∨
      ∃ a b, r = .passed a b ∧ (l.revolveVisits labels n).length = n ∧
        l.Passes (l.revolveVisits labels n) a b l' ∧ (available = true → a = true) ∧
        (b = none → firstBusy = none) := by
  induction n generalizing l available firstBusy with
  | zero =>
    obtain ⟨rfl, rfl⟩ := Prod.mk.inj h
    exact .inr ⟨_, _, rfl, rfl, ⟨.refl hl, fun _ _ hi => by cases hi⟩, id, id⟩
  | succ n ih =>
    rw [revolve] at h
    rw [revolveVisits]
    -- The rest of the way, from where one frame has been passed.
    have onward {m : Ledger} {a₀ : Bool} {b₀ : Option FrameNo} (tour : l.Tour [m.hand] m)
        (ha : available = true → a₀ = true) (hb : b₀ = none → firstBusy = none)
        (stood : b₀ = none → l.Pinned m.hand ∨ (a₀ = true ∧ l.Referenced m.hand))
        (h : m.revolve labels n a₀ b₀ = (l', r)) :
        (∃ v, r = .found v ∧ l.Finds labels (m.hand :: m.revolveVisits labels n) v l') ∨
          ∃ a b, r = .passed a b ∧ (m.hand :: m.revolveVisits labels n).length = n + 1 ∧
            l.Passes (m.hand :: m.revolveVisits labels n) a b l' ∧ (available = true → a = true) ∧
            (b = none → firstBusy = none) := by
      rcases ih (tour.hand_lt hl) h with ⟨v, hr, hf⟩ | ⟨a, b, hr, hlen, hp, ha', hb'⟩
      · exact .inl ⟨v, hr, tour.finds hf⟩
      · refine .inr ⟨a, b, hr, congrArg Nat.succ hlen, hp.cons tour fun hn => ?_, ha' ∘ ha, hb ∘ hb'⟩
        exact (stood (hb' hn)).imp_right fun hs => ⟨ha' hs.1, hs.2⟩
    split at h
    · next m v hv =>
      simp only [hv]
      obtain ⟨rfl, rfl⟩ := Prod.mk.inj h
      rcases visit_tours hl hv with ⟨v', hr, hf⟩ | ⟨st, hr, _⟩
      · obtain rfl := Sum.inl.inj hr
        exact .inl ⟨_, rfl, hf⟩
      · cases hr
    · next m hv =>
      simp only [hv]
      rcases visit_tours hl hv with ⟨_, hr, _⟩ | ⟨st, hr, tour, -, spared⟩
      · cases hr
      · obtain rfl := Sum.inr.inj hr
        exact onward tour (fun _ => rfl) id (fun _ => .inr ⟨rfl, spared rfl⟩) h
    · next m hv =>
      simp only [hv]
      rcases visit_tours hl hv with ⟨_, hr, _⟩ | ⟨st, hr, tour, -⟩
      · cases hr
      · refine onward tour id (fun hb => ?_) (fun hb => ?_) h <;> cases firstBusy <;> cases hb
    · next m hv =>
      simp only [hv]
      rcases visit_tours hl hv with ⟨_, hr, _⟩ | ⟨st, hr, tour, pinned, -⟩
      · cases hr
      · obtain rfl := Sum.inr.inj hr
        exact onward tour id id (fun _ => .inl (pinned rfl)) h

/-- What a sweep comes to, with the frames that it has visited. -/
inductive Sweeps (labels : Labels) (l : Ledger) (vs : List FrameNo) :
    Ledger → Except PoolError Victim → Prop
  | found {v : Victim} {l' : Ledger} (finds : l.Finds labels vs v l') : Sweeps labels l vs l' (.ok v)
  | busy {i : FrameNo} {l' : Ledger} (tour : l.Tour vs l') : Sweeps labels l vs l' (.ok (.busy i))
  | exhausted {l' : Ledger} (tour : l.Tour vs l') (pinned : ∀ i < l.size, l.Pinned i) :
      Sweeps labels l vs l' (.error (.exhausted l.size))

theorem sweep_tours {labels : Labels} {l l' : Ledger} {r : Except PoolError Victim}
    (hl : l.hand < l.size) (h : l.sweep labels = (l', r)) :
    l.Sweeps labels (l.sweepVisits labels) l' r := by
  -- A revolution that has found nothing ends the sweep if it has spared nobody.
  have spent {us vs : List FrameNo} {m m' : Ledger} {a : Bool} {b : Option FrameNo}
      (before : l.Tour us m) (last : m.Passes vs a b m') (hlen : vs.length = m.size)
      (clear : a = true → ∀ i, ¬ m.Referenced i) (h : (m', m'.spent b) = (l', r)) :
      l.Sweeps labels (us ++ vs) l' r := by
    obtain ⟨rfl, rfl⟩ := Prod.mk.inj h
    have tour := before.trans last.tour
    cases b with
    | some i => exact .busy tour
    | none =>
      rw [Ledger.spent, tour.size]
      refine .exhausted tour fun i hi => before.pinned ?_
      have hm : i ∈ vs := by
        rw [last.tour.path, hlen]
        exact mem_ahead (before.size ▸ hi) (before.hand_lt hl) (Nat.le_refl _)
      exact (last.stood rfl i hm).resolve_right fun hr => clear hr.1 i hr.2
  unfold sweep at h
  unfold sweepVisits
  split at h
  · next m v hv =>
    obtain ⟨rfl, rfl⟩ := Prod.mk.inj h
    rw [hv]
    rcases revolve_tours hl hv with ⟨v', hr, hf⟩ | ⟨_, _, hr, _⟩
    · obtain rfl := Round.found.inj hr
      exact .found hf
    · cases hr
  · next m b hv =>
    rw [hv]
    rcases revolve_tours hl hv with ⟨_, hr, _⟩ | ⟨a, b', hr, hlen, hp, -⟩
    · cases hr
    · obtain ⟨rfl, rfl⟩ := Round.passed.inj hr
      exact spent (.refl hl) hp hlen (by rintro ⟨⟩) h
  · next m b hv =>
    simp only [hv]
    rcases revolve_tours hl hv with ⟨_, hr, _⟩ | ⟨_, _, -, hlen, hp, -⟩
    · cases hr
    · have hm := hp.tour.hand_lt hl
      split at h
      · next m' v hv' =>
        obtain ⟨rfl, rfl⟩ := Prod.mk.inj h
        rcases revolve_tours hm hv' with ⟨v', hr, hf⟩ | ⟨_, _, hr, _⟩
        · obtain rfl := Round.found.inj hr
          exact .found (hp.tour.finds hf)
        · cases hr
      · next m' a b' hv' =>
        rcases revolve_tours hm hv' with ⟨_, hr, _⟩ | ⟨a', b, hr, hlen', hp', -⟩
        · cases hr
        · obtain ⟨rfl, rfl⟩ := Round.passed.inj hr
          -- The first revolution has cleared all reference bits.
          refine spent hp.tour hp' hlen' (fun _ i => ?_) h
          exact hp.tour.not_referenced hl (Nat.le_of_eq hlen.symm)

/-- What asking for a page comes to, with the frames that the hand has visited. -/
inductive Seeks (labels : Labels) (l : Ledger) (file : FileNo) (page : PageNo)
    (written : Option Stay) : List FrameNo → Ledger → Except PoolError Acquisition → Prop
  | hit {i : FrameNo} {o : Occupant} (ho : l.occupant? i = some o) :
      Seeks labels l file page written [] (l.setOccupant i o.pin)
        (.ok (.hit ⟨file, page, i, l.generation i⟩ (o.pins + 1)))
  | astray (i : FrameNo) : Seeks labels l file page written [] l
      (.error (.inconsistent i (.mapsToEmpty (labels.key file page))))
  | reclaimed {stay : Stay} {o : Occupant} (hw : written = some stay)
      (ho : l.occupant? stay.frame = some o) (hr : o.referenced = false) :
      Seeks labels l file page written []
        ((l.vacate stay.frame (o.key labels)).install stay.frame (labels.key file page) file page)
        (.ok (.load ⟨file, page, stay.frame, l.generation stay.frame + 1⟩ (some (.written o.page))))
  | placed {vs : List FrameNo} {m : Ledger} {i : FrameNo} {left : Option PageNo}
      (finds : l.Finds labels vs (.vacant i left) m) :
      Seeks labels l file page written vs (m.install i (labels.key file page) file page)
        (.ok (.load ⟨file, page, i, m.generation i + 1⟩ (left.map .clean)))
  | claimed {vs : List FrameNo} {l' : Ledger} {stay : Stay}
      (finds : l.Finds labels vs (.dirty stay) l') :
      Seeks labels l file page written vs l' (.ok (.writeBack stay))
  | waits {vs : List FrameNo} {l' : Ledger} {i : FrameNo} (tour : l.Tour vs l') :
      Seeks labels l file page written vs l' (.ok (.wait i))
  | exhausted {vs : List FrameNo} {l' : Ledger} (tour : l.Tour vs l')
      (pinned : ∀ i < l.size, l.Pinned i) :
      Seeks labels l file page written vs l' (.error (.exhausted l.size))

theorem referenced_of_reclaim? {labels : Labels} {l : Ledger} {stay : Stay} {o : Occupant}
    {taken : Ledger × PageNo} (h : l.reclaim? labels stay = some taken)
    (ho : l.occupant? stay.frame = some o) : o.referenced = false := by
  unfold reclaim? at h
  split at h
  · next p hp =>
    obtain rfl := Option.some.inj (ho.symm.trans (occupantAt_frame.1 hp).2)
    split at h
    · next he => exact (Occupant.isEvictable_iff.1 (Bool.and_eq_true_iff.1 he).1).2.2
    · cases h
  · cases h

theorem acquireBySweep_seeks {labels : Labels} {l l' : Ledger} {file : FileNo} {page : PageNo}
    {r : Except PoolError Acquisition} (hl : l.hand < l.size) (written : Option Stay)
    (h : l.acquireBySweep labels file page = (l', r)) :
    l.Seeks labels file page written (l.sweepVisits labels) l' r := by
  obtain ⟨m, v, hs⟩ : ∃ m v, l.sweep labels = (m, v) := ⟨_, _, rfl⟩
  rw [acquireBySweep, hs] at h
  cases sweep_tours hl hs with
  | busy tour =>
    obtain ⟨rfl, rfl⟩ := Prod.mk.inj h
    exact .waits tour
  | exhausted tour pinned =>
    obtain ⟨rfl, rfl⟩ := Prod.mk.inj h
    exact .exhausted tour pinned
  | @found v _ finds =>
    cases v with
    | vacant i left =>
      simp only [place_eq finds.vacant.1] at h
      obtain ⟨rfl, rfl⟩ := Prod.mk.inj h
      exact .placed finds
    | dirty stay =>
      obtain ⟨rfl, rfl⟩ := Prod.mk.inj h
      exact .claimed finds
    | busy i =>
      obtain ⟨rfl, rfl⟩ := Prod.mk.inj h
      obtain ⟨us, m', -, -, tour, yields⟩ := finds.found
      cases yields
      exact .waits tour

/-- Everything that asking for a page can come to, and the way of the hand. -/
theorem acquire_seeks {labels : Labels} {l l' : Ledger} {file : FileNo} {page : PageNo}
    {written : Option Stay} {r : Except PoolError Acquisition} (hl : l.hand < l.size)
    (h : l.acquire labels file page written = (l', r)) :
    l.Seeks labels file page written (l.acquireVisits labels file page written) l' r := by
  unfold acquire at h
  unfold acquireVisits
  simp only at h
  split at h
  · next i hk =>
    simp only [hk]
    split at h
    · obtain ⟨rfl, rfl⟩ := Prod.mk.inj h
      exact .astray i
    · next o ho =>
      obtain ⟨rfl, rfl⟩ := Prod.mk.inj h
      exact .hit ho
  · next hk =>
    rw [hk]
    split at h
    · exact acquireBySweep_seeks hl _ h
    · next stay =>
      rw [Option.bind_some]
      split at h
      · next hrec =>
        rw [hrec]
        exact acquireBySweep_seeks hl _ h
      · next m left hrec =>
        rw [hrec]
        obtain ⟨o, ho, -, -, rfl, rfl⟩ := reclaim?_eq_some hrec
        have hi := lt_size_of_occupant? ho
        rw [place_eq (by rwa [size_vacate])] at h
        obtain ⟨rfl, rfl⟩ := Prod.mk.inj h
        rw [generation_vacate]
        exact .reclaimed rfl ho (referenced_of_reclaim? hrec ho)

end Ledger

end SecondChance
