import SecondChance.Proofs.System.MoveEffects

/-!
Nobody else moves a page that is being moved.

A frame is marked as busy in one step and put to rest in another, and in between anything may
happen: the pins of the page may be taken away, other tasks may look for a frame, and the task that
has the transfer under way may be given up. All the same the mark and the transfer come and go
together. So there is one transfer for every mark, it finds its page where it left it, and no page
is read or written twice at the same time.
-/

namespace SecondChance

namespace Task

/-- Pages are read and written in the course of transfers, and at no other time. -/
theorem transfer?_of_call? {task : Task} {f : FileNo} {kind : CallKind}
    (h : task.call? = some (f, kind)) (hk : kind = .read ∨ kind = .write) :
    ∃ x, task.transfer? = some x ∧ x.stay.file = f ∧ x.call = kind := by
  have other {g : FileNo} {k : CallKind} (hn : k ≠ .read ∧ k ≠ .write)
      (he : some (g, k) = some (f, kind)) : False := by
    obtain ⟨rfl, rfl⟩ := Prod.mk.inj (Option.some.inj he)
    exact hk.elim hn.1 hn.2
  have moved {y : Option Transfer} (he : (y.map fun x => (x.stay.file, x.call)) = some (f, kind)) :
      ∃ x, y = some x ∧ x.stay.file = f ∧ x.call = kind := by
    obtain ⟨x, hx, he⟩ := Option.map_eq_some_iff.1 he
    obtain ⟨hf, hc⟩ := Prod.mk.inj he
    exact ⟨x, hx, hf, hc⟩
  cases task with
  | allocate | delete | syncFile => exact (other (by simp) h).elim
  | syncAll n files =>
    cases files with
    | nil => cases h
    | cons => exact (other (by simp) h).elim
  | _ => exact moved h

end Task

namespace System.Regular

variable {s : System} (hs : s.Regular)
include hs

/-- A frame is busy if and only if there is exactly one transfer of that kind for its present
page. -/
theorem busy_iff (i : FrameNo) (kind : Transfer.Kind) :
    (∃ o, s.pool.ledger.occupant? i = some o ∧ o.io = .busy kind) ↔
      ∃! t, ∃ x, s.transferOf t = some x ∧ x.kind = kind ∧ x.stay.frame = i ∧
        x.stay.generation = s.pool.ledger.generation i := by
  constructor
  · rintro ⟨o, ho, hio⟩
    obtain ⟨t, ht⟩ := hs.escorted.carried ho hio
    refine ⟨t, ⟨_, ht, rfl, rfl, rfl⟩, ?_⟩
    rintro u ⟨x, hx, -, hi, -⟩
    exact hs.escorted.alone hx ht hi
  · rintro ⟨t, ⟨⟨k, stay⟩, hx, rfl, rfl, -⟩, -⟩
    obtain ⟨o, -, -, ho, hio⟩ := hs.seat hx
    exact ⟨o, ho, hio⟩

/-- Two tasks that move pages of one key are the same task. -/
theorem transfer_inj {t t' : TaskId} {x x' : Transfer} (hx : s.transferOf t = some x)
    (hx' : s.transferOf t' = some x')
    (hkey : s.labels.key x.stay.file x.stay.page = s.labels.key x'.stay.file x'.stay.page) :
    t = t' := by
  obtain ⟨o, hat, -, hf, hp⟩ := hs.escorted.occupantAt hx
  obtain ⟨o', hat', -, hf', hp'⟩ := hs.escorted.occupantAt hx'
  -- Both pages have the same key, so they are in the same frame.
  refine hs.escorted.alone hx hx' ?_
  refine hs.consistent.frame_inj (Ledger.occupantAt_frame.1 hat).2
    (Ledger.occupantAt_frame.1 hat').2 ?_
  rw [Occupant.key, Occupant.key, hf, hp, hf', hp']
  exact hkey

end System.Regular

/-- In every state of every run a frame is marked as being loaded, or as being written back, if and
only if exactly one task has a transfer of that kind under way for the page that is there now. A
transfer is the only one of its frame, which is neither empty nor idle, and whoever ends it finds
its own page there with its own mark. Pages are read and written by transfers only: no other call
that a task announces is a read or a write, and no move does anything else to the files than to make
the call of a transfer, or to allocate or delete a page. Of all pages with one key no more than one
is being read or written at a time. -/
theorem transfers_exclusive {n : Nat} (hn : 0 < n) (c : Catalog) {h : History} {s : System}
    (run : Reaches (fun _ => True) (.new n c) h s) :
    (∀ i kind, (∃ o, s.pool.ledger.occupant? i = some o ∧ o.io = .busy kind) ↔
      ∃! t, ∃ x, s.transferOf t = some x ∧ x.kind = kind ∧ x.stay.frame = i ∧
        x.stay.generation = s.pool.ledger.generation i) ∧
    (∀ t x, s.transferOf t = some x →
      (∀ t' x', s.transferOf t' = some x' → x'.stay.frame = x.stay.frame → t' = t) ∧
      ∃ o, (s.pool.ledger.frame x.stay.frame).occupantAt x.stay.generation = some o ∧
        o.io = .busy x.kind ∧ o.file = x.stay.file ∧ o.page = x.stay.page) ∧
    (∀ i, (∀ o, s.pool.ledger.occupant? i = some o → o.io = .idle) →
      ∀ t x, s.transferOf t = some x → x.stay.frame ≠ i) ∧
    (∀ t task f kind, s.tasks.find? t = some task → task.call? = some (f, kind) →
      kind = .read ∨ kind = .write →
      ∃ x, s.transferOf t = some x ∧ x.stay.file = f ∧ x.call = kind) ∧
    (∀ m, s.Permits m → s.UsesFiles m (s.after m).files) ∧
    ∀ t t' x x', s.transferOf t = some x → s.transferOf t' = some x' →
      s.labels.key x.stay.file x.stay.page = s.labels.key x'.stay.file x'.stay.page → t = t' := by
  have hs := run.regular hn
  refine ⟨hs.busy_iff, fun t x hx => ⟨fun t' x' hx' hi => hs.escorted.alone hx' hx hi,
    hs.escorted.occupantAt hx⟩, fun i idle t x hx => ?_, fun t task f kind ht hc hk => ?_,
    fun m hp => System.usesFiles_after hs.consistent.size_pos hp,
    fun t t' x x' hx hx' hkey => hs.transfer_inj hx hx' hkey⟩
  · exact (hs.escorted.ne_frame idle hx).symm
  · rw [System.transferOf_eq ht]
    exact Task.transfer?_of_call? hc hk

/-- While a page is being loaded there is exactly one task that does it. -/
theorem transfers_exclusive_smallLoading : ∃ h, Reaches (fun _ => True) .small h .smallLoading ∧
    ∃! t, ∃ x, System.smallLoading.transferOf t = some x ∧ x.kind = .load ∧ x.stay.frame = 0 ∧
      x.stay.generation = 1 := by
  obtain ⟨h, run⟩ : ∃ h, Reaches (fun _ => True) .small h .smallLoading :=
    Reaches.smallLoading trivial trivial
  obtain ⟨busy, -⟩ := transfers_exclusive Nat.zero_lt_one _ run
  exact ⟨h, run, (busy 0 .load).1 ⟨.arriving 0 0, rfl, rfl⟩⟩

end SecondChance
