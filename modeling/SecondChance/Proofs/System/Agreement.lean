import SecondChance.Proofs.System.Refusals

/-!
The page table and the frames agree in every state of every run.

Nothing is assumed of a run but that files go on reporting the identities they had at its beginning.
Two things are made sure of wherever a page comes in: its frame is empty, and the table does not
have it. `acquireChecked` makes sure of both before it goes on, and it never has to stop.
-/

namespace SecondChance

namespace Ledger

variable (labels : Labels) (l : Ledger) (file : FileNo) (page : PageNo)

/-- `place`, unless the frame is taken or the table has the page already. -/
def placeChecked (i : FrameNo) (departed : Option Departure) :
    Option (Ledger × Except PoolError Acquisition) :=
  if l.occupant? i = none ∧ l.table.find? (labels.key file page) = none then
    some (l.place labels file page i departed)
  else none

def acquireBySweepChecked : Option (Ledger × Except PoolError Acquisition) :=
  match l.sweep labels with
  | (l, .error e) => some (l, .error e)
  | (l, .ok (.vacant i evicted)) => l.placeChecked labels file page i (evicted.map .clean)
  | (l, .ok (.dirty stay)) => some (l, .ok (.writeBack stay))
  | (l, .ok (.busy i)) => some (l, .ok (.wait i))

/-- `acquire` with a check wherever it places a page. -/
def acquireChecked (written : Option Stay) : Option (Ledger × Except PoolError Acquisition) :=
  let key := labels.key file page
  match l.table.find? key with
  | some i =>
    match l.occupant? i with
    | none => some (l, .error (.inconsistent i (.mapsToEmpty key)))
    | some o =>
      some (l.setOccupant i o.pin,
        .ok (.hit ⟨file, page, i, (l.frame i).generation⟩ (o.pins + 1)))
  | none =>
    match written with
    | none => l.acquireBySweepChecked labels file page
    | some stay =>
      match l.reclaim? labels stay with
      | none => l.acquireBySweepChecked labels file page
      | some (l, left) => l.placeChecked labels file page stay.frame (some (.written left))

variable {labels l file page}

theorem placeChecked_eq {i : FrameNo} (ho : l.occupant? i = none)
    (hk : l.table.find? (labels.key file page) = none) (d : Option Departure) :
    l.placeChecked labels file page i d = some (l.place labels file page i d) :=
  if_pos ⟨ho, hk⟩

theorem placeChecked_vacate {i : FrameNo} {o : Occupant} (ho : l.occupant? i = some o)
    (hk : l.table.find? (labels.key file page) = none) (k : PageKey) (d : Option Departure) :
    (l.vacate i k).placeChecked labels file page i d =
      some ((l.vacate i k).place labels file page i d) := by
  refine placeChecked_eq ?_ ?_ d
  · rw [occupant?_vacate (lt_size_of_occupant? ho), if_pos rfl]
  · rw [table_vacate, Table.find?_erase, hk, ite_self]

theorem acquireBySweepChecked_eq (hn : 0 < l.size)
    (hk : l.table.find? (labels.key file page) = none) :
    l.acquireBySweepChecked labels file page = some (l.acquireBySweep labels file page) := by
  obtain ⟨m, r, hs⟩ : ∃ m r, l.sweep labels = (m, r) := ⟨_, _, rfl⟩
  unfold acquireBySweepChecked acquireBySweep
  rw [hs]
  rcases sweep_cases hn hs with ⟨v, l₁, rfl, hc, hy⟩ | ⟨rfl, -⟩
  · have hk₁ : l₁.table.find? (labels.key file page) = none := by rw [hc.table, hk]
    cases hy with
    | vacant hi ho => exact placeChecked_eq ho hk₁ _
    | evicted ho => exact placeChecked_vacate ho hk₁ _ _
    | claimed => rfl
    | busy => rfl
  · rfl

theorem acquireChecked_eq (hn : 0 < l.size) (written : Option Stay) :
    l.acquireChecked labels file page written = some (l.acquire labels file page written) := by
  simp only [acquireChecked, acquire]
  cases hk : l.table.find? (labels.key file page) with dsimp only
  | some i => cases l.occupant? i <;> rfl
  | none =>
    cases written with dsimp only
    | none => exact acquireBySweepChecked_eq hn hk
    | some stay =>
      cases hr : l.reclaim? labels stay with dsimp only
      | none => exact acquireBySweepChecked_eq hn hk
      | some left =>
        obtain ⟨o, ho, -, -, hl, -⟩ := reclaim?_eq_some hr
        obtain ⟨m, page'⟩ := left
        subst hl
        exact placeChecked_vacate ho hk _ _

end Ledger

namespace System

/-- A regular system never reports that its two accounts disagree. -/
theorem Regular.refusal?_ne_inconsistent {s : System} {m : Move} (hs : s.Regular)
    (hp : s.Permits m) (i : FrameNo) (d : Discrepancy) :
    s.refusal? m ≠ some (.inconsistent i d) := by
  intro h
  cases refuses_of_refusal? hs hp h with
  | giveBack _ hh hr => cases Ledger.unpinStay_cases hr
  | enter _ ht hl => cases Ledger.stillLoading_eq_error hl
  | unpin hr =>
    rcases Ledger.unpinPage_cases hr with ⟨-, he⟩ | ⟨_, _, -, -, -, -, hr⟩
    · obtain ⟨hk, ho⟩ := he i d rfl
      exact hs.consistent.occupant?_ne_none hk ho
    · cases hr

end System

theorem Reaches.size {allowed : Move → Prop} {n : Nat} (hn : 0 < n) {c : Catalog} {s : System}
    {h : History} (run : Reaches allowed (.new n c) h s) : s.pool.ledger.size = n :=
  (run.preserve (P := fun _ s => s.pool.ledger.size = n) (fun _ => True) (.new hn c)
    Array.size_replicate (fun _ _ _ _ _ => trivial) fun _ h _ a => a.size.trans h).2

/-- In every state of every run the entries of the page table are exactly the pairs of an occupied
frame and the key of its page, no page is in two frames, frames have the numbers of their places and
the hand points at one of them. So an audit finds nothing, pages are counted right, no operation
reports a disagreement, and no page is placed in a frame that is taken or entered a second time. -/
theorem tables_agree {n : Nat} (hn : 0 < n) (c : Catalog) {h : History} {s : System}
    (run : Reaches (fun _ => True) (.new n c) h s) :
    (∀ k i, (k, i) ∈ s.pool.ledger.table.entries ↔
      ∃ o, s.pool.ledger.occupant? i = some o ∧ o.key s.labels = k) ∧
    (∀ i j o p, s.pool.ledger.occupant? i = some o → s.pool.ledger.occupant? j = some p →
      o.key s.labels = p.key s.labels → i = j) ∧
    (s.pool.ledger.diagnostics s.labels).frames.map (·.frame) = List.range n ∧
    s.pool.ledger.hand < n ∧
    s.pool.ledger.audit s.labels = .ok () ∧
    s.pool.ledger.resident =
      (List.range n).countP (fun i => (s.pool.ledger.occupant? i).isSome) ∧
    (∀ m, s.Permits m → ∀ i d, s.refusal? m ≠ some (.inconsistent i d)) ∧
    ∀ file page written, s.pool.ledger.acquireChecked s.labels file page written =
      some (s.pool.ledger.acquire s.labels file page written) := by
  have hs := run.regular hn
  have hc := hs.consistent
  have hsize := run.size hn
  refine ⟨fun k i => ?_, fun i j o p hi hj hk => hc.frame_inj hi hj hk, ?_, ?_, hc.audit_eq_ok,
    ?_, fun m hp i d => hs.refusal?_ne_inconsistent hp i d, fun file page written => ?_⟩
  · rw [Table.mem_entries_iff]
    exact hc.find?_iff k i
  · rw [Ledger.diagnostics, List.map_map, hsize]
    exact List.map_id _
  · rw [← hsize]
    exact hc.hand_lt
  · rw [hc.resident_eq, hsize]
  · exact Ledger.acquireChecked_eq hc.size_pos written

theorem tables_agree_smallLoading : ∃ h, Reaches (fun _ => True) .small h .smallLoading ∧
    (⟨⟨1⟩, 0⟩, 0) ∈ System.smallLoading.pool.ledger.table.entries ∧
    System.smallLoading.pool.ledger.audit System.smallLoading.labels = .ok () := by
  obtain ⟨h, run⟩ : ∃ h, Reaches (fun _ => True) .small h .smallLoading :=
    Reaches.smallLoading trivial trivial
  obtain ⟨entries, -, -, -, audit, -⟩ := tables_agree Nat.zero_lt_one _ run
  exact ⟨h, run, (entries _ _).2 ⟨.arriving 0 0, rfl, rfl⟩, audit⟩

end SecondChance
