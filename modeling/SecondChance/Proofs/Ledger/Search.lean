import SecondChance.Pool.Flushing
import SecondChance.Proofs.Ledger.Frames

/-!
What the search for a frame comes to.

`Yields` says what each victim of a sweep stands for, and `Acquires` says the same of every answer
that a fetch can get. In both the ledger at the end is reached from the one at the beginning by
letting the hand pass, by clean pages leaving, and then by the one change that the answer tells of.
-/

namespace SecondChance.Ledger

/-- What a victim stands for: the ledger `l` when the hand has come to rest, and the ledger at the
end. -/
inductive Yields (labels : Labels) (l : Ledger) : Victim → Ledger → Prop
  | vacant {i : FrameNo} (hi : i < l.size) (ho : l.occupant? i = none) :
      Yields labels l (.vacant i none) l
  | evicted {i : FrameNo} {o : Occupant} (ho : l.occupant? i = some o)
      (hs : o.standing = .available) (hd : o.dirty = false) :
      Yields labels l (.vacant i (some o.page)) (l.vacate i (o.key labels))
  | claimed {i : FrameNo} {o : Occupant} (ho : l.occupant? i = some o)
      (hs : o.standing = .available) (hd : o.dirty = true) :
      Yields labels l (.dirty (l.stayOf i o)) (l.setOccupant i o.claimed)
  | busy {i : FrameNo} {o : Occupant} (ho : l.occupant? i = some o) (hs : o.standing = .busy) :
      Yields labels l (.busy i) l

/-- A frame that is worth waiting for. -/
def Busy (l : Ledger) (i : FrameNo) : Prop := ∃ o, l.occupant? i = some o ∧ o.standing = .busy

theorem Cooled.busy {l l' : Ledger} (h : l.Cooled l') {i : FrameNo} (hb : l.Busy i) :
    l'.Busy i := by
  obtain ⟨o, ho, hs⟩ := hb
  obtain ⟨r, hr⟩ := h.after ho
  exact ⟨_, hr, hs⟩

theorem hand_advance_lt {l : Ledger} (h : 0 < l.size) : l.advance.hand < l.advance.size :=
  Nat.mod_lt _ h

theorem visit_cases {labels : Labels} {l l' : Ledger} {r : Victim ⊕ Standing} (hn : 0 < l.size)
    (h : l.visit labels = (l', r)) :
    (∃ v l₁, r = .inl v ∧ l.Cooled l₁ ∧ l₁.Yields labels v l') ∨
      (∃ st, r = .inr st ∧ l.Cooled l' ∧ (st = .busy → l'.Busy l'.hand)) := by
  have hc := cooled_advance l
  have hi := hand_advance_lt hn
  unfold visit at h
  generalize l.advance = a at h hc hi
  simp only at h
  split at h
  · next ho =>
    obtain ⟨rfl, rfl⟩ := Prod.mk.inj h
    exact .inl ⟨_, _, rfl, hc, .vacant hi ho⟩
  · next o ho =>
    split at h
    · obtain ⟨rfl, rfl⟩ := Prod.mk.inj h
      refine .inr ⟨_, rfl, hc.trans (cooled_setOccupant ho), fun hs => ?_⟩
      refine ⟨{ o with referenced := false }, ?_, hs⟩
      rw [hand_setOccupant, occupant?_setOccupant hi, if_pos rfl]
    · split at h
      · next hs =>
        split at h
        · next hd =>
          obtain ⟨rfl, rfl⟩ := Prod.mk.inj h
          exact .inl ⟨_, _, rfl, hc, .claimed ho hs hd⟩
        · next hd =>
          obtain ⟨rfl, rfl⟩ := Prod.mk.inj h
          exact .inl ⟨_, _, rfl, hc, .evicted ho hs (by simpa using hd)⟩
      · next hs =>
        obtain ⟨rfl, rfl⟩ := Prod.mk.inj h
        exact .inr ⟨_, rfl, hc, fun hb => ⟨o, ho, hb⟩⟩

theorem revolve_cases {labels : Labels} {n : Nat} {l l' : Ledger} {available : Bool}
    {firstBusy : Option FrameNo} {r : Round} (hn : 0 < l.size) (hb : ∀ i ∈ firstBusy, l.Busy i)
    (h : l.revolve labels n available firstBusy = (l', r)) :
    (∃ v l₁, r = .found v ∧ l.Cooled l₁ ∧ l₁.Yields labels v l') ∨
      (∃ a b, r = .passed a b ∧ l.Cooled l' ∧ ∀ i ∈ b, l'.Busy i) := by
  induction n generalizing l available firstBusy with
  | zero =>
    obtain ⟨rfl, rfl⟩ := Prod.mk.inj h
    exact .inr ⟨_, _, rfl, .refl _, hb⟩
  | succ n ih =>
    rw [revolve] at h
    -- One visit, and if it passes a frame the rest of the way from there.
    have onward {m : Ledger} {a : Bool} {b : Option FrameNo} (hm : l.Cooled m)
        (hb : ∀ i ∈ b, m.Busy i) (h : m.revolve labels n a b = (l', r)) :
        (∃ v l₁, r = .found v ∧ l.Cooled l₁ ∧ l₁.Yields labels v l') ∨
          (∃ a b, r = .passed a b ∧ l.Cooled l' ∧ ∀ i ∈ b, l'.Busy i) := by
      rcases ih (hm.size ▸ hn) hb h with ⟨v, l₁, hr, hc, hy⟩ | ⟨a, b, hr, hc, hb⟩
      · exact .inl ⟨v, l₁, hr, hm.trans hc, hy⟩
      · exact .inr ⟨a, b, hr, hm.trans hc, hb⟩
    have kept {m : Ledger} (hm : l.Cooled m) : ∀ i ∈ firstBusy, m.Busy i :=
      fun i hi => hm.busy (hb i hi)
    split at h
    · next m v hv =>
      obtain ⟨rfl, rfl⟩ := Prod.mk.inj h
      rcases visit_cases hn hv with ⟨v', l₁, hr, hc, hy⟩ | ⟨st, hr, _⟩
      · obtain rfl := Sum.inl.inj hr
        exact .inl ⟨_, _, rfl, hc, hy⟩
      · cases hr
    · next m hv =>
      rcases visit_cases hn hv with ⟨_, _, hr, _⟩ | ⟨st, hr, hc, hs⟩
      · cases hr
      · exact onward hc (kept hc) h
    · next m hv =>
      rcases visit_cases hn hv with ⟨_, _, hr, _⟩ | ⟨st, hr, hc, hs⟩
      · cases hr
      · obtain rfl := Sum.inr.inj hr
        refine onward hc (fun i hi => ?_) h
        cases hf : firstBusy with
        | none =>
          rw [hf] at hi
          obtain rfl : m.hand = i := by simpa using hi
          exact hs rfl
        | some j =>
          rw [hf] at hi
          obtain rfl : j = i := by simpa using hi
          exact kept hc j (by rw [hf]; rfl)
    · next m hv =>
      rcases visit_cases hn hv with ⟨_, _, hr, _⟩ | ⟨st, hr, hc, hs⟩
      · cases hr
      · exact onward hc (kept hc) h

theorem sweep_cases {labels : Labels} {l l' : Ledger} {r : Except PoolError Victim}
    (hn : 0 < l.size) (h : l.sweep labels = (l', r)) :
    (∃ v l₁, r = .ok v ∧ l.Cooled l₁ ∧ l₁.Yields labels v l') ∨
      (r = .error (.exhausted l.size) ∧ l.Cooled l') := by
  have spent {m : Ledger} {b : Option FrameNo} (hm : l.Cooled m) (hb : ∀ i ∈ b, m.Busy i)
      (h : (m, m.spent b) = (l', r)) :
      (∃ v l₁, r = .ok v ∧ l.Cooled l₁ ∧ l₁.Yields labels v l') ∨
        (r = .error (.exhausted l.size) ∧ l.Cooled l') := by
    obtain ⟨rfl, rfl⟩ := Prod.mk.inj h
    cases b with
    | none => exact .inr ⟨by rw [Ledger.spent, hm.size], hm⟩
    | some i =>
      obtain ⟨o, ho, hs⟩ := hb i rfl
      exact .inl ⟨_, m, rfl, hm, .busy ho hs⟩
  have unseen {m : Ledger} : ∀ i ∈ (none : Option FrameNo), m.Busy i := by simp
  unfold sweep at h
  split at h
  · next m v hv =>
    obtain ⟨rfl, rfl⟩ := Prod.mk.inj h
    rcases revolve_cases hn unseen hv with ⟨v', l₁, hr, hc, hy⟩ | ⟨_, _, hr, _⟩
    · obtain rfl := Round.found.inj hr
      exact .inl ⟨_, _, rfl, hc, hy⟩
    · cases hr
  · next m b hv =>
    rcases revolve_cases hn unseen hv with ⟨_, _, hr, _⟩ | ⟨a, b', hr, hc, hb⟩
    · cases hr
    · obtain ⟨-, rfl⟩ := Round.passed.inj hr
      exact spent hc hb h
  · next m b hv =>
    rcases revolve_cases hn unseen hv with ⟨_, _, hr, _⟩ | ⟨_, _, -, hm, -⟩
    · cases hr
    · split at h
      · next m' v hv' =>
        obtain ⟨rfl, rfl⟩ := Prod.mk.inj h
        rcases revolve_cases (hm.size ▸ hn) unseen hv' with ⟨v', l₁, hr, hc, hy⟩ | ⟨_, _, hr, _⟩
        · obtain rfl := Round.found.inj hr
          exact .inl ⟨_, _, rfl, hm.trans hc, hy⟩
        · cases hr
      · next m' a b' hv' =>
        rcases revolve_cases (hm.size ▸ hn) unseen hv' with ⟨_, _, hr, _⟩ | ⟨a', b, hr, hc, hb⟩
        · cases hr
        · obtain ⟨-, rfl⟩ := Round.passed.inj hr
          exact spent (hm.trans hc) hb h

/-- What asking for page `page` of file `file` comes to, and the ledger it leaves. -/
inductive Acquires (labels : Labels) (l : Ledger) (file : FileNo) (page : PageNo) :
    Ledger → Except PoolError Acquisition → Prop
  | hit {i : FrameNo} {o : Occupant} (hk : l.table.find? (labels.key file page) = some i)
      (ho : l.occupant? i = some o) :
      Acquires labels l file page (l.setOccupant i o.pin)
        (.ok (.hit ⟨file, page, i, l.generation i⟩ (o.pins + 1)))
  | astray {i : FrameNo} (hk : l.table.find? (labels.key file page) = some i)
      (ho : l.occupant? i = none) :
      Acquires labels l file page l
        (.error (.inconsistent i (.mapsToEmpty (labels.key file page))))
  | load {m : Ledger} {i : FrameNo} (d : Option Departure)
      (hk : l.table.find? (labels.key file page) = none) (hm : l.Eased labels m)
      (hi : i < m.size) (ho : m.occupant? i = none) :
      Acquires labels l file page (m.install i (labels.key file page) file page)
        (.ok (.load ⟨file, page, i, m.generation i + 1⟩ d))
  | writeBack {m : Ledger} {i : FrameNo} {o : Occupant}
      (hk : l.table.find? (labels.key file page) = none) (hm : l.Eased labels m)
      (ho : m.occupant? i = some o) (hs : o.standing = .available) (hd : o.dirty = true) :
      Acquires labels l file page (m.setOccupant i o.claimed) (.ok (.writeBack (m.stayOf i o)))
  | wait {m : Ledger} {i : FrameNo} (hk : l.table.find? (labels.key file page) = none)
      (hm : l.Eased labels m) (hb : m.Busy i) : Acquires labels l file page m (.ok (.wait i))
  | exhausted {m : Ledger} (hk : l.table.find? (labels.key file page) = none)
      (hm : l.Eased labels m) : Acquires labels l file page m (.error (.exhausted l.size))

theorem place_eq {labels : Labels} {l : Ledger} {i : FrameNo} (hi : i < l.size) (file : FileNo)
    (page : PageNo) (d : Option Departure) :
    l.place labels file page i d =
      (l.install i (labels.key file page) file page,
        .ok (.load ⟨file, page, i, l.generation i + 1⟩ d)) := by
  have hg : ((l.install i (labels.key file page) file page).frame i).generation =
      l.generation i + 1 := by
    have h := generation_install hi (labels.key file page) file page i
    rwa [if_pos rfl] at h
  rw [place, hg]

/-- Only a clean page is reclaimed, which nobody has and which is not being moved; its frame is
emptied. -/
theorem reclaim?_eq_some {labels : Labels} {l l' : Ledger} {written : Stay} {left : PageNo}
    (h : l.reclaim? labels written = some (l', left)) :
    ∃ o, l.occupant? written.frame = some o ∧ o.standing = .available ∧ o.dirty = false ∧
      l' = l.vacate written.frame (o.key labels) ∧ left = o.page := by
  unfold reclaim? at h
  split at h
  · next o ho =>
    split at h
    · next he =>
      obtain ⟨hev, hd⟩ : o.isEvictable = true ∧ o.dirty = false := by simpa using he
      obtain ⟨rfl, rfl⟩ := Prod.mk.inj (Option.some.inj h)
      have hs : o.standing = .available := by
        rw [Occupant.isEvictable_iff] at hev
        exact Occupant.standing_eq_available.2 ⟨hev.1, hev.2.1⟩
      exact ⟨o, (occupantAt_frame.1 ho).2, hs, hd, rfl, rfl⟩
    · cases h
  · cases h

theorem acquireBySweep_cases {labels : Labels} {l l' : Ledger} {file : FileNo} {page : PageNo}
    {r : Except PoolError Acquisition} (hn : 0 < l.size)
    (hk : l.table.find? (labels.key file page) = none)
    (h : l.acquireBySweep labels file page = (l', r)) : l.Acquires labels file page l' r := by
  unfold acquireBySweep at h
  split at h
  · next m e hs =>
    obtain ⟨rfl, rfl⟩ := Prod.mk.inj h
    rcases sweep_cases hn hs with ⟨_, _, hr, _⟩ | ⟨hr, hc⟩
    · cases hr
    · obtain rfl := Except.error.inj hr
      exact .exhausted hk (.cooled hc)
  · next m i d hs =>
    rcases sweep_cases hn hs with ⟨v, l₁, hr, hc, hy⟩ | ⟨hr, _⟩
    · obtain rfl := Except.ok.inj hr
      cases hy with
      | vacant hi ho =>
        rw [place_eq hi] at h
        obtain ⟨rfl, rfl⟩ := Prod.mk.inj h
        exact .load _ hk (.cooled hc) hi ho
      | evicted ho ha hd =>
        have hi := lt_size_of_occupant? ho
        rw [place_eq (by rwa [size_vacate])] at h
        obtain ⟨rfl, rfl⟩ := Prod.mk.inj h
        refine .load _ hk (.vacated (.cooled hc) ho ha hd) (by rwa [size_vacate]) ?_
        rw [occupant?_vacate hi, if_pos rfl]
    · cases hr
  · next m stay hs =>
    obtain ⟨rfl, rfl⟩ := Prod.mk.inj h
    rcases sweep_cases hn hs with ⟨v, l₁, hr, hc, hy⟩ | ⟨hr, _⟩
    · obtain rfl := Except.ok.inj hr
      cases hy with
      | claimed ho ha hd => exact .writeBack hk (.cooled hc) ho ha hd
    · cases hr
  · next m i hs =>
    obtain ⟨rfl, rfl⟩ := Prod.mk.inj h
    rcases sweep_cases hn hs with ⟨v, l₁, hr, hc, hy⟩ | ⟨hr, _⟩
    · obtain rfl := Except.ok.inj hr
      cases hy with
      | busy ho hb => exact .wait hk (.cooled hc) ⟨_, ho, hb⟩
    · cases hr

/-- Everything that asking for a page can come to. -/
theorem acquire_cases {labels : Labels} {l l' : Ledger} {file : FileNo} {page : PageNo}
    {written : Option Stay} {r : Except PoolError Acquisition} (hn : 0 < l.size)
    (h : l.acquire labels file page written = (l', r)) : l.Acquires labels file page l' r := by
  unfold acquire at h
  simp only at h
  split at h
  · next i hk =>
    split at h
    · next ho =>
      obtain ⟨rfl, rfl⟩ := Prod.mk.inj h
      exact .astray hk ho
    · next o ho =>
      obtain ⟨rfl, rfl⟩ := Prod.mk.inj h
      exact .hit hk ho
  · next hk =>
    split at h
    · exact acquireBySweep_cases hn hk h
    · next stay =>
      split at h
      · exact acquireBySweep_cases hn hk h
      · next m left hrec =>
        obtain ⟨o, ho, hs, hd, rfl, rfl⟩ := reclaim?_eq_some hrec
        have hi := lt_size_of_occupant? ho
        rw [place_eq (by rwa [size_vacate])] at h
        obtain ⟨rfl, rfl⟩ := Prod.mk.inj h
        refine .load _ hk (.vacated (.refl labels l) ho hs hd) (by rwa [size_vacate]) ?_
        rw [occupant?_vacate hi, if_pos rfl]

end SecondChance.Ledger
