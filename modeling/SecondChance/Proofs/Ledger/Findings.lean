import SecondChance.Pool.Audit
import SecondChance.Session.Perform

/-!
What an audit finds, in any ledger whatsoever.

An audit goes through the frames and asks the table for each page that it meets; then it goes
through the entries of the table and asks the frames. Neither way is enough by itself: the table may
have entries that no frame answers for, and two frames may hold one page, of which the table knows
one only. Both ways together leave no room for either, so an audit that finds nothing proves that
the entries are exactly the pages in the frames. An audit that finds something names a frame at
which the two accounts do differ. None of this depends on the order in which the table lists its
entries.
-/

namespace SecondChance.Ledger

/-! ### Checks one after the other -/

section Checks

variable {α ε : Type} {e : ε}

theorem bind_eq_ok_iff {x y : Except ε Unit} :
    (x >>= fun _ => y) = .ok () ↔ x = .ok () ∧ y = .ok () := by
  cases x <;> simp [bind, Except.bind]

theorem bind_eq_error_iff {x y : Except ε Unit} :
    (x >>= fun _ => y) = .error e ↔ x = .error e ∨ x = .ok () ∧ y = .error e := by
  cases x <;> simp [bind, Except.bind]

variable {check : α → Except ε Unit} {xs : List α}

theorem forM_eq_ok_iff : xs.forM check = .ok () ↔ ∀ x ∈ xs, check x = .ok () := by
  induction xs with
  | nil => exact ⟨fun _ _ hx => absurd hx List.not_mem_nil, fun _ => rfl⟩
  | cons x xs ih =>
    show (check x >>= fun _ => xs.forM check) = .ok () ↔ _
    rw [bind_eq_ok_iff, ih, List.forall_mem_cons]

theorem exists_of_forM_eq_error (h : xs.forM check = .error e) :
    ∃ before x after, xs = before ++ x :: after ∧ (∀ y ∈ before, check y = .ok ()) ∧
      check x = .error e := by
  induction xs with
  | nil => cases h
  | cons x xs ih =>
    have h : (check x >>= fun _ => xs.forM check) = .error e := h
    rcases bind_eq_error_iff.1 h with found | ⟨passed, later⟩
    · exact ⟨[], x, xs, rfl, by simp, found⟩
    · obtain ⟨before, y, after, rfl, passed', found⟩ := ih later
      exact ⟨x :: before, y, after, rfl, List.forall_mem_cons.2 ⟨passed, passed'⟩, found⟩

theorem before_eq_range {n i : Nat} {before after : List Nat}
    (h : List.range n = before ++ i :: after) : before = List.range i := by
  rw [List.range_eq_range', List.range'_eq_append_iff] at h
  obtain ⟨k, -, hbefore, hrest⟩ := h
  obtain ⟨hk, -⟩ := List.range'_eq_cons_iff.1 hrest.symm
  have hki : k = i := by omega
  rw [hbefore, hki, List.range_eq_range']

end Checks

/-! ### Frames and entries -/

variable (labels : Labels) (l : Ledger)

/-- The table has the frame for the page that the frame holds, if it holds any. -/
def Entered (i : FrameNo) : Prop :=
  ∀ o, l.occupant? i = some o → l.table.find? (o.key labels) = some i

/-- How the frame of an entry can fail to hold the page of the entry. -/
inductive Strays (k : PageKey) (i : FrameNo) : Prop
  | missing (hi : l.size ≤ i)
  | empty (hi : i < l.size) (ho : l.occupant? i = none)
  | otherwise {o : Occupant} (ho : l.occupant? i = some o) (hk : o.key labels ≠ k)

/-- What an audit may report, and of which frame: the first one whose page is not entered, or, if
all pages are, one that an entry leads to without reason. -/
inductive Finding : FrameNo → Discrepancy → Prop
  | page {i : FrameNo} {o : Occupant} (ho : l.occupant? i = some o)
      (elsewhere : l.table.find? (o.key labels) ≠ some i) (first : ∀ j < i, l.Entered labels j) :
      Finding i (.tableHas o.page (labels o.file).name (l.table.find? (o.key labels)))
  | entry {k : PageKey} {i : FrameNo} (entered : ∀ j, l.Entered labels j)
      (hk : (k, i) ∈ l.table.entries) (strays : l.Strays labels k i) :
      Finding i (.frameHolds k ((l.occupant? i).map (·.key labels)))

variable {labels l} {i : FrameNo} {k : PageKey} {e : PoolError}

theorem auditFrame_eq_ok_iff : l.auditFrame labels i = .ok () ↔ l.Entered labels i := by
  unfold auditFrame Entered
  cases l.occupant? i <;> simp

theorem auditFrame_eq_error (h : l.auditFrame labels i = .error e) :
    ∃ o, l.occupant? i = some o ∧ l.table.find? (o.key labels) ≠ some i ∧
      e = .inconsistent i (.tableHas o.page (labels o.file).name (l.table.find? (o.key labels))) := by
  unfold auditFrame at h
  cases ho : l.occupant? i with
  | none =>
    rw [ho] at h
    cases h
  | some o =>
    simp only [ho] at h
    split at h
    · cases h
    · next elsewhere => exact ⟨o, rfl, elsewhere, (Except.error.inj h).symm⟩

theorem strays_of_not_held (h : (l.occupant? i).map (·.key labels) ≠ some k) :
    l.Strays labels k i := by
  cases ho : l.occupant? i with
  | none =>
    rcases Nat.lt_or_ge i l.size with hi | hi
    · exact .empty hi ho
    · exact .missing hi
  | some o =>
    rw [ho] at h
    exact .otherwise ho fun hk => h (congrArg some hk)

theorem auditEntry_eq_ok_iff :
    l.auditEntry labels (k, i) = .ok () ↔ ∃ o, l.occupant? i = some o ∧ o.key labels = k := by
  simp [auditEntry]

theorem auditEntry_eq_error (h : l.auditEntry labels (k, i) = .error e) :
    l.Strays labels k i ∧
      e = .inconsistent i (.frameHolds k ((l.occupant? i).map (·.key labels))) := by
  simp only [auditEntry] at h
  split at h
  · cases h
  · next lost => exact ⟨strays_of_not_held lost, (Except.error.inj h).symm⟩

/-! ### Both ways together -/

theorem auditFrames_eq_ok_iff :
    (List.range l.size).forM (l.auditFrame labels) = .ok () ↔ ∀ i, l.Entered labels i := by
  rw [forM_eq_ok_iff]
  constructor
  · intro h i o ho
    have hi : i < l.size := lt_size_of_occupant? ho
    exact auditFrame_eq_ok_iff.1 (h i (List.mem_range.2 hi)) o ho
  · intro h i _
    exact auditFrame_eq_ok_iff.2 (h i)

theorem audit_eq : l.audit labels = ((List.range l.size).forM (l.auditFrame labels) >>= fun _ =>
    l.table.entries.forM (l.auditEntry labels)) := rfl

/-- An audit finds nothing exactly if every page is entered where it is, and every entry leads to
its page. -/
theorem audit_eq_ok_iff : l.audit labels = .ok () ↔ (∀ i, l.Entered labels i) ∧
    ∀ k i, (k, i) ∈ l.table.entries → ∃ o, l.occupant? i = some o ∧ o.key labels = k := by
  rw [audit_eq, bind_eq_ok_iff, auditFrames_eq_ok_iff, forM_eq_ok_iff]
  simp only [Prod.forall, auditEntry_eq_ok_iff]

theorem finding_of_audit (h : l.audit labels = .error e) :
    ∃ i d, e = .inconsistent i d ∧ l.Finding labels i d := by
  rw [audit_eq] at h
  rcases bind_eq_error_iff.1 h with found | ⟨passed, found⟩
  · obtain ⟨before, i, after, frames, passed, found⟩ := exists_of_forM_eq_error found
    obtain ⟨o, ho, elsewhere, rfl⟩ := auditFrame_eq_error found
    rw [before_eq_range frames] at passed
    have first : ∀ j < i, l.Entered labels j := by
      intro j hj
      exact auditFrame_eq_ok_iff.1 (passed j (List.mem_range.2 hj))
    exact ⟨i, _, rfl, .page ho elsewhere first⟩
  · obtain ⟨before, ⟨k, i⟩, after, entries, -, found⟩ := exists_of_forM_eq_error found
    obtain ⟨strays, rfl⟩ := auditEntry_eq_error found
    have hk : (k, i) ∈ l.table.entries := by simp [entries]
    exact ⟨i, _, rfl, .entry (auditFrames_eq_ok_iff.1 passed) hk strays⟩

/-- An audit that is asked for is answered at once, and nothing else happens. -/
theorem perform_verify {s : Session} {b : PoolNo} {x : System} (hs : s.serving? b = some x) :
    s.perform (.verify b) =
      .ok (s, .answered (.ofPool (x.pool.ledger.audit x.labels)) []) := by
  have answered : s.performOnPool (.verify b) =
      some (s.answer (.ofPool (x.pool.ledger.audit x.labels))) := by
    simp only [Session.performOnPool, Session.withPool, hs, Option.elim_some]
  simp only [Session.perform, Session.performOnFiles, Session.performOnHandle, answered]
  rfl

/-- In whatever state the two accounts are, an audit finds nothing exactly if the entries of the
page table are the pairs of an occupied frame and the key of its page, and no two frames hold pages
of one key. Whatever it reports is a disagreement at the frame that it names. A pool that is audited
stays as it is. -/
theorem audit_exact (labels : Labels) (l : Ledger) :
    (l.audit labels = .ok () ↔
      (∀ k i, (k, i) ∈ l.table.entries ↔ ∃ o, l.occupant? i = some o ∧ o.key labels = k) ∧
      ∀ i j o p, l.occupant? i = some o → l.occupant? j = some p →
        o.key labels = p.key labels → i = j) ∧
    (∀ e, l.audit labels = .error e → ∃ i d, e = .inconsistent i d ∧ l.Finding labels i d) ∧
    ∀ (s : Session) (b : PoolNo) (x : System), s.serving? b = some x → x.pool.ledger = l →
      x.labels = labels →
      s.perform (.verify b) = .ok (s, .answered (.ofPool (l.audit labels)) []) := by
  refine ⟨?_, fun e he => finding_of_audit he, ?_⟩
  · rw [audit_eq_ok_iff]
    constructor
    · rintro ⟨entered, held⟩
      refine ⟨fun k i => ⟨held k i, ?_⟩, fun i j o p ho hp hk => ?_⟩
      · rintro ⟨o, ho, rfl⟩
        exact (l.table.mem_entries_iff _ _).2 (entered i o ho)
      · -- The table has one frame for a key.
        have hi := entered i o ho
        have hj := entered j p hp
        rw [hk, hj] at hi
        exact (Option.some.inj hi).symm
    · rintro ⟨entries, -⟩
      refine ⟨fun i o ho => ?_, fun k i hk => (entries k i).1 hk⟩
      exact (l.table.mem_entries_iff _ _).1 ((entries _ _).2 ⟨o, ho, rfl⟩)
  · rintro s b x hs rfl rfl
    exact perform_verify hs

/-- Two frames hold one page, and the table knows the second of them. -/
theorem audit_exact_twice :
    let labels := Catalog.empty.labels
    let arriving : Frame := Frame.unused.install 0 0
    let l : Ledger := ⟨#[arriving, arriving], Table.empty.insert (labels.key 0 0) 1, 0⟩
    let s : Session := { Session.new with
      berths := #[.serving (.new { Pool.new 2 with ledger := l })] }
    l.audit labels ≠ .ok () ∧
      (∃ d, l.audit labels = .error (.inconsistent 0 d) ∧ l.Finding labels 0 d) ∧
      s.perform (.verify 0) = .ok (s, .answered (.ofPool (l.audit labels)) []) := by
  intro labels arriving l s
  obtain ⟨ok, finding, performed⟩ := audit_exact labels l
  have found : l.audit labels = .error (.inconsistent 0 (.tableHas 0 "" (some 1))) := rfl
  refine ⟨fun h => ?_, ?_, performed s 0 _ rfl rfl rfl⟩
  · have same : 0 = 1 := (ok.1 h).2 0 1 _ _ rfl rfl rfl
    omega
  · obtain ⟨i, d, he, disagree⟩ := finding _ found
    obtain ⟨rfl, rfl⟩ := PoolError.inconsistent.inj he
    exact ⟨_, found, disagree⟩

end SecondChance.Ledger
