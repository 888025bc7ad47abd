import SecondChance.Proofs.Ledger.Search

/-!
What the other decisions about frames come to: flushing, expelling, settling and unpinning.

Each of them looks at one frame, and either leaves the ledger alone or makes one change to that
frame. The cases are listed with everything that was checked before, so nobody has to open the
functions again.
-/

namespace SecondChance.Ledger

/-- What flushing a file comes to at frame `i`. -/
inductive FlushesFile (labels : Labels) (l : Ledger) (i : FrameNo) (id : FileId) :
    Ledger → Except PoolError Flush → Prop
  | skip (h : ∀ o, l.occupant? i = some o → (labels o.file).id ≠ id) :
      FlushesFile labels l i id l (.ok .done)
  | astray {o : Occupant} (ho : l.occupant? i = some o) (hid : (labels o.file).id = id)
      (hk : l.table.find? (o.key labels) ≠ some i) :
      FlushesFile labels l i id l
        (.error (.inconsistent i (.notMappedHere o.page (labels o.file).name)))
  | pinned {o : Occupant} (ho : l.occupant? i = some o) (hid : (labels o.file).id = id)
      (hp : o.pins ≠ 0) :
      FlushesFile labels l i id l (.error (.pinned (labels o.file).name o.page i))
  | wait {o : Occupant} (ho : l.occupant? i = some o) (hid : (labels o.file).id = id)
      (hs : o.standing = .busy) : FlushesFile labels l i id l (.ok (.wait i))
  | claimed {o : Occupant} (ho : l.occupant? i = some o) (hid : (labels o.file).id = id)
      (hs : o.standing = .available) (hd : o.dirty = true) :
      FlushesFile labels l i id (l.setOccupant i o.claimed) (.ok (.writeBack (l.stayOf i o)))
  | emptied {o : Occupant} (ho : l.occupant? i = some o) (hid : (labels o.file).id = id)
      (hs : o.standing = .available) (hd : o.dirty = false) :
      FlushesFile labels l i id (l.vacate i (o.key labels)) (.ok .done)

theorem flushFileAt_cases {labels : Labels} {l l' : Ledger} {i : FrameNo} {id : FileId}
    {r : Except PoolError Flush} (h : l.flushFileAt labels i id = (l', r)) :
    l.FlushesFile labels i id l' r := by
  unfold flushFileAt at h
  split at h
  · next ho =>
    obtain ⟨rfl, rfl⟩ := Prod.mk.inj h
    exact .skip fun o ho' => by rw [ho] at ho'; cases ho'
  · next o ho =>
    simp only [ne_eq, ite_not] at h
    split at h
    · next hid =>
      split at h
      · split at h
        · next hp =>
          have avail (hio : o.io = .idle) : o.standing = .available :=
            Occupant.standing_eq_available.2 ⟨hp, hio⟩
          split at h
          · next hio =>
            split at h
            · next hd =>
              obtain ⟨rfl, rfl⟩ := Prod.mk.inj h
              exact .claimed ho hid (avail hio) hd
            · next hd =>
              obtain ⟨rfl, rfl⟩ := Prod.mk.inj h
              exact .emptied ho hid (avail hio) (by simpa using hd)
          · next hio =>
            obtain ⟨rfl, rfl⟩ := Prod.mk.inj h
            exact .wait ho hid (Occupant.standing_eq_busy.2 ⟨hp, hio⟩)
        · next hp =>
          obtain ⟨rfl, rfl⟩ := Prod.mk.inj h
          exact .pinned ho hid hp
      · next hk =>
        obtain ⟨rfl, rfl⟩ := Prod.mk.inj h
        exact .astray ho hid hk
    · next hid =>
      obtain ⟨rfl, rfl⟩ := Prod.mk.inj h
      refine .skip fun o' ho' => ?_
      rw [ho] at ho'
      exact Option.some.inj ho' ▸ hid

/-- What flushing everything comes to at frame `i`. -/
inductive FlushesAll (l : Ledger) (i : FrameNo) : Ledger → Flush → Prop
  | skip (h : ∀ o, l.occupant? i = some o → o.io = .busy .load ∨ o.io = .idle ∧ o.dirty = false) :
      FlushesAll l i l .done
  | wait {o : Occupant} (ho : l.occupant? i = some o) (hio : o.io = .busy .writeBack) :
      FlushesAll l i l (.wait i)
  | claimed {o : Occupant} (ho : l.occupant? i = some o) (hio : o.io = .idle)
      (hd : o.dirty = true) :
      FlushesAll l i (l.setOccupant i o.claimed) (.writeBack (l.stayOf i o))

theorem flushAllAt_cases {l l' : Ledger} {i : FrameNo} {r : Flush}
    (h : l.flushAllAt i = (l', r)) : l.FlushesAll i l' r := by
  unfold flushAllAt at h
  split at h
  · next ho =>
    obtain ⟨rfl, rfl⟩ := Prod.mk.inj h
    exact .skip fun o ho' => by rw [ho] at ho'; cases ho'
  · next o ho =>
    split at h
    · next hio =>
      obtain ⟨rfl, rfl⟩ := Prod.mk.inj h
      exact .wait ho hio
    · next hio hd =>
      obtain ⟨rfl, rfl⟩ := Prod.mk.inj h
      exact .claimed ho hio hd
    · next hw hc =>
      obtain ⟨rfl, rfl⟩ := Prod.mk.inj h
      refine .skip fun o' ho' => ?_
      rw [ho] at ho'
      obtain rfl := Option.some.inj ho'
      match hio : o.io, hd : o.dirty with
      | .busy .load, _ => exact .inl rfl
      | .busy .writeBack, _ => exact (hw hio).elim
      | .idle, true => exact (hc hio hd).elim
      | .idle, false => exact .inr ⟨rfl, rfl⟩

/-- What taking the page of a key out of the pool comes to. -/
inductive Expels (l : Ledger) (key : PageKey) (file : String) (page : PageNo) :
    Ledger → Except PoolError (Option FrameNo) → Prop
  | absent (hk : l.table.find? key = none) : Expels l key file page l (.ok none)
  | astray {i : FrameNo} (hk : l.table.find? key = some i) (ho : l.occupant? i = none) :
      Expels l key file page l (.error (.inconsistent i (.mapsToEmpty key)))
  | pinned {i : FrameNo} {o : Occupant} (hk : l.table.find? key = some i)
      (ho : l.occupant? i = some o) (hp : o.pins ≠ 0) :
      Expels l key file page l (.error (.pinned file page i))
  | wait {i : FrameNo} {o : Occupant} (hk : l.table.find? key = some i)
      (ho : l.occupant? i = some o) (hs : o.standing = .busy) :
      Expels l key file page l (.ok (some i))
  | emptied {i : FrameNo} {o : Occupant} (hk : l.table.find? key = some i)
      (ho : l.occupant? i = some o) (hs : o.standing = .available) :
      Expels l key file page (l.vacate i key) (.ok none)

theorem expel_cases {l l' : Ledger} {key : PageKey} {file : String} {page : PageNo}
    {r : Except PoolError (Option FrameNo)} (h : l.expel key file page = (l', r)) :
    l.Expels key file page l' r := by
  unfold expel at h
  split at h
  · next hk =>
    obtain ⟨rfl, rfl⟩ := Prod.mk.inj h
    exact .absent hk
  · next i hk =>
    split at h
    · next ho =>
      obtain ⟨rfl, rfl⟩ := Prod.mk.inj h
      exact .astray hk ho
    · next o ho =>
      simp only [ne_eq, ite_not] at h
      split at h
      · next hp =>
        split at h
        · next hio =>
          obtain ⟨rfl, rfl⟩ := Prod.mk.inj h
          exact .emptied hk ho (Occupant.standing_eq_available.2 ⟨hp, hio⟩)
        · next hio =>
          obtain ⟨rfl, rfl⟩ := Prod.mk.inj h
          exact .wait hk ho (Occupant.standing_eq_busy.2 ⟨hp, hio⟩)
      · next hp =>
        obtain ⟨rfl, rfl⟩ := Prod.mk.inj h
        exact .pinned hk ho hp

/-! ### The end of a transfer -/

section Settle

variable {labels : Labels} {l : Ledger} {o : Occupant} {stay : Stay}

theorem settle_of_over {t : Transfer} {ok : Bool}
    (h : ∀ o, (l.frame t.stay.frame).occupantAt t.stay.generation = some o → o.io ≠ .busy t.kind) :
    l.settle labels t ok = l := by
  unfold settle
  split
  · rfl
  · next o ho => rw [if_neg (h o ho)]

variable (ho : (l.frame stay.frame).occupantAt stay.generation = some o)
include ho

theorem settle_succeeded {kind : Transfer.Kind} (hio : o.io = .busy kind) :
    l.settle labels ⟨kind, stay⟩ true = l.setOccupant stay.frame { o with io := .idle } := by
  unfold settle
  cases kind <;> simp only [ho, hio, if_true]

theorem settle_load_failed (hio : o.io = .busy .load) :
    l.settle labels ⟨.load, stay⟩ false = l.vacate stay.frame (o.key labels) := by
  unfold settle
  simp only [ho, hio, if_true]

theorem settle_writeBack_failed (hio : o.io = .busy .writeBack) :
    l.settle labels ⟨.writeBack, stay⟩ false =
      l.setOccupant stay.frame { o with io := .idle, dirty := true } := by
  unfold settle
  simp only [ho, hio, if_true]

end Settle

/-! ### Giving back pins -/

/-- What giving back a pin of a stay comes to. -/
inductive Returns (labels : Labels) (l : Ledger) (stay : Stay) (dirty : Bool) :
    Ledger → Except PoolError Unit → Prop
  | stale (h : (l.frame stay.frame).occupantAt stay.generation = none) :
      Returns labels l stay dirty l (.error (.stale stay.frame))
  | unpinned {o : Occupant} (ho : (l.frame stay.frame).occupantAt stay.generation = some o)
      (hp : o.pins = 0) :
      Returns labels l stay dirty l
        (.error (.notPinned (labels o.file).name o.page stay.frame))
  | ok {o : Occupant} (ho : (l.frame stay.frame).occupantAt stay.generation = some o)
      (hp : o.pins ≠ 0) :
      Returns labels l stay dirty (l.setOccupant stay.frame (o.returned dirty)) (.ok ())

theorem unpinStay_cases {labels : Labels} {l l' : Ledger} {stay : Stay} {dirty : Bool}
    {r : Except PoolError Unit} (h : l.unpinStay labels stay dirty = (l', r)) :
    l.Returns labels stay dirty l' r := by
  unfold unpinStay at h
  split at h
  · next ho =>
    obtain ⟨rfl, rfl⟩ := Prod.mk.inj h
    exact .stale ho
  · next o ho =>
    by_cases hp : o.pins = 0
    · rw [Occupant.unpin?_of_unpinned hp] at h
      obtain ⟨rfl, rfl⟩ := Prod.mk.inj h
      exact .unpinned ho hp
    · rw [Occupant.unpin?_of_pinned hp] at h
      obtain ⟨rfl, rfl⟩ := Prod.mk.inj h
      exact .ok ho hp

theorem unpinPage_of_pinned {labels : Labels} {l : Ledger} {file : FileNo} {page : PageNo}
    {i : FrameNo} {o : Occupant} (hk : l.table.find? (labels.key file page) = some i)
    (ho : l.occupant? i = some o) (hp : o.pins ≠ 0) (dirty : Bool) :
    l.unpinPage labels file page dirty =
      (l.setOccupant i (o.returned dirty), .ok (some (i, o.pins - 1))) := by
  simp only [unpinPage, hk, ho, Occupant.unpin?_of_pinned hp]
  rfl

theorem unpinPage_cases {labels : Labels} {l l' : Ledger} {file : FileNo} {page : PageNo}
    {dirty : Bool} {r : Except PoolError (Option (FrameNo × Nat))}
    (h : l.unpinPage labels file page dirty = (l', r)) :
    (l' = l ∧ ∀ i d, r = .error (.inconsistent i d) →
        l.table.find? (labels.key file page) = some i ∧ l.occupant? i = none) ∨
      ∃ i o, l.table.find? (labels.key file page) = some i ∧ l.occupant? i = some o ∧
        o.pins ≠ 0 ∧ l' = l.setOccupant i (o.returned dirty) ∧ r = .ok (some (i, o.pins - 1)) := by
  unfold unpinPage at h
  simp only at h
  split at h
  · obtain ⟨rfl, rfl⟩ := Prod.mk.inj h
    refine .inl ⟨rfl, fun i d he => ?_⟩
    cases he
  · next i hk =>
    split at h
    · next ho =>
      obtain ⟨rfl, rfl⟩ := Prod.mk.inj h
      refine .inl ⟨rfl, fun j d he => ?_⟩
      obtain ⟨rfl, -⟩ := PoolError.inconsistent.inj (Except.error.inj he)
      exact ⟨hk, ho⟩
    · next o ho =>
      by_cases hp : o.pins = 0
      · rw [Occupant.unpin?_of_unpinned hp] at h
        obtain ⟨rfl, rfl⟩ := Prod.mk.inj h
        refine .inl ⟨rfl, fun j d he => ?_⟩
        cases he
      · rw [Occupant.unpin?_of_pinned hp] at h
        obtain ⟨rfl, rfl⟩ := Prod.mk.inj h
        exact .inr ⟨i, o, hk, ho, hp, rfl, rfl⟩

theorem stillLoading_cases (l : Ledger) (stay : Stay) :
    l.stillLoading stay = .error (.stale stay.frame) ∨
      ∃ o, (l.frame stay.frame).occupantAt stay.generation = some o ∧ o.pins ≠ 0 ∧
        l.stillLoading stay = .ok (o.io = .busy .load) := by
  unfold stillLoading
  split
  · exact .inl rfl
  · next o ho =>
    split
    · exact .inl rfl
    · next hp => exact .inr ⟨o, ho, hp, rfl⟩

theorem stillLoading_eq_error {l : Ledger} {stay : Stay} {e : PoolError}
    (h : l.stillLoading stay = .error e) : e = .stale stay.frame := by
  rcases l.stillLoading_cases stay with hs | ⟨o, -, -, hs⟩
  · rw [hs] at h
    exact (Except.error.inj h).symm
  · rw [hs] at h
    cases h

end SecondChance.Ledger
