import SecondChance.Proofs.System.Flushes

/-!
No update is lost.

Whatever else goes on while everything is flushed, a change that was given back before the flush
began is in its file when the flush is done. Until then the page is unsaved, so it stays in one
frame, and the flush has either not come to that frame or is writing the page. Behind the last frame
nothing can be left of that.
-/

namespace SecondChance

section Flush

variable {n : Nat} (hn : 0 < n) {c : Catalog} (hd : c.Distinct) (ha : c.Apart) {h₀ h : History}
  {s₀ s : System} (run : Reaches Move.IsFair (.new n c) h₀ s₀) {t : TaskId}
  (begins : s₀.Permits (.begin t .flushAll))

include run begins in
theorem Reaches.sinceFlush (since : Reaches (fun m => m.IsFair ∧ ¬ m.Begins t)
    (s₀.after (.begin t .flushAll)) h s) :
    Reaches Move.IsFair (.new n c) (h ++ (s₀, .begin t .flushAll) :: h₀) s :=
  (run.move begins trivial).append (since.mono fun _ => And.left)

include hn hd ha run begins

/-- A change that was given back before the flush began is saved, or the flush has not come past its
page. -/
theorem Reaches.saved_or_ahead {f : FileNo} (hf : f < c.files.size) {p : PageNo} {i : Nat}
    {x : Change} (hx : (h₀.changes f p s₀)[i]? = some x) (returned : x.returned = true)
    (since : Reaches (fun m => m.IsFair ∧ ¬ m.Begins t) (s₀.after (.begin t .flushAll)) h s) :
    i < (History.edits f p (h ++ (s₀, .begin t .flushAll) :: h₀) s).length ∧
    (i < History.saved f p (h ++ (s₀, .begin t .flushAll) :: h₀) s ∨ s.tasks.find? t = none ∨
      ∃ stay : Stay, stay.file = f ∧ stay.page = p ∧ s.pool.ledger.Unsaved stay ∧
        s.Approaches t stay.frame) := by
  induction since with
  | start =>
    have traced := (run.move begins trivial).traced hn hd ha hf p
    have place : (History.changes f p ((s₀, .begin t .flushAll) :: h₀)
        (s₀.after (.begin t .flushAll)))[i]? = some (x.seenIn _) := History.changes_move hx
    obtain ⟨hlt, -⟩ := List.getElem?_eq_some_iff.1 place
    refine ⟨(History.length_edits ..).symm ▸ hlt, ?_⟩
    rcases Nat.lt_or_ge i (History.saved f p ((s₀, .begin t .flushAll) :: h₀)
      (s₀.after (.begin t .flushAll))) with saved | hge
    · exact .inl saved
    · obtain ⟨stay, hsf, hsp, hu | ⟨hr, -⟩⟩ := traced.due place hge
      · have find : (s₀.after (.begin t .flushAll)).tasks.find? t =
            some (.flushAll 0 [] (.look none)) := by
          rw [System.after, System.tasks_begin, Table.find?_insert_self]
          rfl
        exact .inr (.inr ⟨stay, hsf, hsp, hu, System.approaches_of_look find (Nat.zero_le _)⟩)
      · simp [Change.seenIn, returned] at hr
  | @move h s m since possible kind ih =>
    obtain ⟨hlt, state⟩ := ih
    have total := run.sinceFlush begins since
    have hs := total.sound hn hd ha
    have hsize := hs.regular.consistent.size_pos
    have longer := History.length_edits_mono (f := f) (p := p) (h ++ (s₀, .begin t .flushAll) :: h₀)
      s (s.after m) m
    refine ⟨Nat.lt_of_lt_of_le hlt longer, ?_⟩
    rcases state with saved | ended | ⟨stay, rfl, rfl, hu, approaches⟩
    · exact .inl (Nat.lt_of_lt_of_le saved (History.saved_mono ..))
    · refine .inr (.inl (System.find?_after_of_none hsize possible ?_ ended))
      rintro op rfl
      exact kind.2 rfl
    · have hfile : s.hasFile stay.file := (total.hasFile hn _).2 hf
      rcases System.approaches_after hs possible kind.1 kind.2 hfile hu approaches with
        stored | ended | ⟨hu', approaches'⟩
      · refine .inl ?_
        rw [List.cons_append, History.saved_of_stored stored]
        exact Nat.lt_of_lt_of_le hlt longer
      · exact .inr (.inl ended)
      · exact .inr (.inr ⟨stay, rfl, rfl, hu', approaches'⟩)

theorem Reaches.saved_of_flushed {f : FileNo} (hf : f < c.files.size) {p : PageNo} {i : Nat}
    {x : Change} (hx : (h₀.changes f p s₀)[i]? = some x) (returned : x.returned = true)
    (since : Reaches (fun m => m.IsFair ∧ ¬ m.Begins t) (s₀.after (.begin t .flushAll)) h s)
    {fault : Option Fault} (ready : s.Permits (.resume t fault))
    (done : (s.resume t fault).2.2 = some .done) :
    i < History.saved f p (h ++ (s₀, .begin t .flushAll) :: h₀) s := by
  obtain ⟨-, saved | ended | ⟨stay, -, -, -, approaches⟩⟩ :=
    run.saved_or_ahead hn hd ha begins hf hx returned since
  · exact saved
  · obtain ⟨task, ht, -⟩ := System.isReady_iff.1 ready
    exact nomatch ended.symm.trans ht
  · exact (System.result_ne_done approaches done).elim

theorem Reaches.closing (idle : s₀.isIdle = true)
    (since : Reaches (fun m => m.IsFair ∧ ∀ u, ¬ m.Begins u) (s₀.after (.begin t .flushAll)) h s)
    (f : FileNo) (p : PageNo) :
    s.Closing ∧ History.edits f p (h ++ (s₀, .begin t .flushAll) :: h₀) s = h₀.edits f p s₀ := by
  induction since with
  | start => exact ⟨.begin idle t, History.edits_of_quiet rfl⟩
  | @move h s m since possible kind ih =>
    obtain ⟨closing, same⟩ := ih
    have total := run.sinceFlush begins (since.mono fun _ hm => ⟨hm.1, hm.2 t⟩)
    have hsize := (total.sound hn hd ha).regular.consistent.size_pos
    refine ⟨closing.move hsize possible kind.1 kind.2, ?_⟩
    rw [List.cons_append, History.edits_of_quiet (closing.changeBy_eq_none f p m), same]

theorem Reaches.stored_of_closed (idle : s₀.isIdle = true)
    (since : Reaches (fun m => m.IsFair ∧ ∀ u, ¬ m.Begins u) (s₀.after (.begin t .flushAll)) h s)
    {fault : Option Fault} (fair : (Move.resume t fault).IsFair)
    (ready : s.Permits (.resume t fault)) (done : (s.resume t fault).2.2 = some .done) {f : FileNo}
    (hf : f < c.files.size) {p : PageNo} {q : Page} (hq : s₀.content f p = some q) :
    (s.after (.resume t fault)).files.page? f p = some q := by
  have since' : Reaches (fun m => m.IsFair ∧ ¬ m.Begins t) (s₀.after (.begin t .flushAll)) h s :=
    since.mono fun _ hm => ⟨hm.1, hm.2 t⟩
  have total := run.sinceFlush begins since'
  obtain ⟨closing, same⟩ := run.closing hn hd ha begins idle since f p
  have edits : History.edits f p ((s, .resume t fault) :: (h ++ (s₀, .begin t .flushAll) :: h₀))
      (s.after (.resume t fault)) = h₀.edits f p s₀ :=
    (History.edits_of_quiet (closing.changeBy_eq_none f p _)).trans same
  -- All handles have been given back, so everything is saved.
  have saved : (h₀.edits f p s₀).length ≤ History.saved f p
      ((s, .resume t fault) :: (h ++ (s₀, .begin t .flushAll) :: h₀))
      (s.after (.resume t fault)) := by
    refine Nat.le_of_not_lt fun hlt => ?_
    rw [History.length_edits] at hlt
    have place := List.getElem?_eq_getElem hlt
    have returned := History.returned_of_unlent (System.find?_of_isIdle idle).1 place
    have flushed := run.saved_of_flushed hn hd ha begins hf place returned since' ready done
    exact Nat.lt_irrefl _ (Nat.lt_of_lt_of_le flushed (History.saved_mono ..))
  have before := (run.traced hn hd ha hf p).content
  rw [hq] at before
  obtain ⟨q₀, origin, rfl⟩ := Option.map_eq_some_iff.1 before.symm
  have after := ((total.move ready fair).traced hn hd ha hf p).file
  rw [edits, List.take_of_length_le saved,
    History.origin_move (History.origin_append origin h s)] at after
  exact after

end Flush

theorem Reaches.origin_eq {allowed : Move → Prop} {n : Nat} {c : Catalog} {h : History} {s : System}
    (run : Reaches allowed (.new n c) h s) {f : FileNo} {p : PageNo} {q : Page}
    (hq : c.page? f p = some q) : h.origin f p s = some q := by
  induction run with
  | start => exact hq
  | move _ _ _ ih => exact History.origin_move ih

/-- Where all edits of a page add to slots, every slot of the page has what it had in the beginning
and all that was added, and in the file what was added by the saved edits, both modulo the word. -/
theorem Traced.word_add {f : FileNo} {p : PageNo} {h : History} {s : System} (tr : Traced f p h s)
    {adds : List (Nat × Nat)}
    (he : h.edits f p s = adds.map fun a => (Page.Edit.add a.1 a.2).apply) {q : Page}
    (ho : h.origin f p s = some q) {j : Nat} (hj : j < Page.slotCount) :
    (s.content f p).map (·.word j) = some ((q.word j + Page.addedTo j adds) % Page.wordLimit) ∧
    (s.files.page? f p).map (·.word j) =
      some ((q.word j + Page.addedTo j (adds.take (h.saved f p s))) % Page.wordLimit) := by
  constructor
  · rw [tr.content, ho, he, Option.map_some, Option.map_some, Page.word_changed_add hj]
  · rw [tr.file, ho, he, ← List.map_take, Option.map_some, Option.map_some,
      Page.word_changed_add hj]

/-- In every state of every such run a page contains what it did in the beginning with all edits
made to it, and its file has what it did in the beginning with the first of them, of which none is
ever taken back. Where all edits add something to slots, every slot has the sum. When a flush of
everything is done, every change is in its file whose handle had been given back before the flush
was asked for, whatever else went on meanwhile; and when a pool has been closed, all files have what
their pages contained. -/
theorem no_update_lost {n : Nat} (hn : 0 < n) {c : Catalog} (hd : c.Distinct) (ha : c.Apart)
    {h : History} {s : System} (run : Reaches Move.IsFair (.new n c) h s) :
    (∀ f p, f < c.files.size →
      (∀ q, c.page? f p = some q → h.origin f p s = some q) ∧
      s.content f p = (h.origin f p s).map (·.changed (h.edits f p s)) ∧
      s.files.page? f p =
        (h.origin f p s).map (·.changed ((h.edits f p s).take (h.saved f p s))) ∧
      (∀ m, (h.edits f p s).take (h.saved f p s) <+:
        (History.edits f p ((s, m) :: h) (s.after m)).take
          (History.saved f p ((s, m) :: h) (s.after m))) ∧
      ∀ adds, h.edits f p s = adds.map (fun a => (Page.Edit.add a.1 a.2).apply) →
        ∀ q, h.origin f p s = some q → ∀ j, j < Page.slotCount →
          (s.content f p).map (·.word j) =
            some ((q.word j + Page.addedTo j adds) % Page.wordLimit) ∧
          (s.files.page? f p).map (·.word j) =
            some ((q.word j + Page.addedTo j (adds.take (h.saved f p s))) % Page.wordLimit)) ∧
    ∀ t, s.Permits (.begin t .flushAll) → ∀ h' s' fault, s'.Permits (.resume t fault) →
      (s'.resume t fault).2.2 = some .done →
      (Reaches (fun m => m.IsFair ∧ ¬ m.Begins t) (s.after (.begin t .flushAll)) h' s' →
        ∀ f p, f < c.files.size → ∀ i x, (h.changes f p s)[i]? = some x → x.returned = true →
          i < History.saved f p (h' ++ (s, .begin t .flushAll) :: h) s') ∧
      (s.isIdle = true → (Move.resume t fault).IsFair →
        Reaches (fun m => m.IsFair ∧ ∀ u, ¬ m.Begins u) (s.after (.begin t .flushAll)) h' s' →
        ∀ f p, f < c.files.size → ∀ q, s.content f p = some q →
          (s'.after (.resume t fault)).files.page? f p = some q) := by
  refine ⟨fun f p hf => ?_, fun t begins h' s' fault ready done => ⟨fun since f p hf i x hx hr => ?_,
    fun idle fair since f p hf q hq => ?_⟩⟩
  · have traced := run.traced hn hd ha hf p
    exact ⟨fun q hq => run.origin_eq hq, traced.content, traced.file,
      fun m => History.saved_edits_prefix h s (s.after m) m,
      fun adds he q ho j hj => traced.word_add he ho hj⟩
  · exact run.saved_of_flushed hn hd ha begins hf hx hr since ready done
  · exact run.stored_of_closed hn hd ha begins idle since fair ready done hf hq

/-- A page is written to and given back, and then everything is flushed. -/
theorem no_update_lost_small : ∃ h s h' s', Reaches Move.IsFair .small h s ∧
    Reaches (fun m => m.IsFair ∧ ¬ m.Begins 2) (s.after (.begin 2 .flushAll)) h' s' ∧
    (s'.resume 2 none).2.2 = some .done ∧ (h.changes 0 0 s).length = 1 ∧
    0 < History.saved 0 0 (h' ++ (s, .begin 2 .flushAll) :: h) s' := by
  have begun : Reaches (fun m => m.IsFair ∧ ¬ m.Begins 2)
      (smallReturned.2.after (.begin 2 .flushAll)) [] _ := .start
  have written := (begun.move (m := .resume 2 none) rfl ⟨rfl, id⟩).move (m := .resume 2 none) rfl
    ⟨rfl, id⟩
  -- There are no more frames, and the file is synced.
  have synced := (written.move (m := .resume 2 none) rfl ⟨rfl, id⟩).move (m := .resume 2 none) rfl
    ⟨rfl, id⟩
  refine ⟨_, _, _, _, reaches_smallReturned, synced, rfl, rfl, ?_⟩
  exact ((no_update_lost Nat.zero_lt_one distinct_small apart_small reaches_smallReturned).2 2
    ⟨rfl, trivial⟩ _ _ none (by rfl) (by rfl)).1 synced 0 0 Nat.zero_lt_one 0 _ rfl rfl

end SecondChance
