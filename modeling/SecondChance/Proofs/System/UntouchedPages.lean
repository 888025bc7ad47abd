import SecondChance.Proofs.Store.Upkeep
import SecondChance.Proofs.System.OwedWrites
import SecondChance.Proofs.System.Disposal
import SecondChance.Proofs.System.Provenance

/-!
Pages that nobody touches.

A page contains the same as long as no writer edits it, nobody disposes of it and no load of it is
cut short. It may be evicted and loaded again, be written back with or without success, and be lost
while it is loaded: nothing of it is lost if its file has what it contains, or if it is in a frame
that is marked as having more than the file. One of the two remains true then, because the mark goes
away only when the file has got the content.

This holds of every run, of those as well in which pages are disposed of and pins are given back by
page.
-/

namespace SecondChance

namespace System

variable {s s' : System} {m : Move} {t : TaskId} {stay : Stay} {fault : Option Fault} {f : FileNo}
  {p : PageNo} {i : FrameNo} {o : Occupant} {q : Option Page}

/-! ### The files -/

theorem Does.served (d : s.Does m s') (ha : s.files.Apart) : s.files.Served s'.files := by
  unfold Does at d
  generalize s'.pool.ledger = l, s'.pool.buffers = b, s'.files = files at d ⊢
  cases d with
  | @load _ fault stay _ _ hx hr =>
    have served : s.files.Served (s.files.read fault stay.file stay.page
      (.page (s.pool.buffer stay.frame))).1 := Catalog.served_read ha
    rwa [hr] at served
  | @save _ fault stay _ _ hx hr =>
    have served : s.files.Served (s.files.write fault stay.file stay.page
      (.page (s.pool.buffer stay.frame))).1 := Catalog.served_write ha
    rwa [hr] at served
  | strike => exact Catalog.served_write ha
  | allocate => exact Catalog.served_allocate ha
  | delete => exact Catalog.served_delete ha
  | _ => exact .inl rfl

theorem hasFile_of_isLive (hl : s.files.isLive f p = true) : s.hasFile f := by
  by_contra hf
  rw [Catalog.isLive, Array.getElem?_eq_none (Nat.le_of_not_lt hf)] at hl
  cases hl

theorem Regular.sole (hs : s.Regular) {j : FrameNo} {r : Occupant}
    (ho : s.pool.ledger.occupant? i = some o) (hr : s.pool.ledger.occupant? j = some r)
    (hf : o.file = r.file) (hp : o.page = r.page) : i = j ∧ o = r := by
  obtain rfl := hs.consistent.frame_inj ho hr (by rw [Occupant.key, Occupant.key, hf, hp])
  exact ⟨rfl, Option.some.inj (ho.symm.trans hr)⟩

/-! ### Touching a page -/

/-- The move may change what the page contains, or it disposes of the page: a writer edits it, a
load delivers only a part of it, or it is taken out of the pool or from its file to be gone. -/
def Touches (s : System) (f : FileNo) (p : PageNo) (m : Move) : Bool :=
  (s.marks m).any (fun
    | .edited stay _ => s.pool.ledger.shown stay.frame = some (f, p)
    | .cutShort stay => stay.file = f ∧ stay.page = p
    | .expelled key => key = s.labels.key f p
    | _ => false) ||
  match m with
  | .resume t _ => (s.tasks.find? t).any (·.deletes f p)
  | _ => false

section Untouched

variable (untouched : s.Touches f p m = false)
include untouched

theorem not_shown_of_untouched {e : Page → Page} (hk : .edited stay e ∈ s.marks m) :
    s.pool.ledger.shown stay.frame ≠ some (f, p) := by
  have spared := List.any_eq_false.1 (Bool.or_eq_false_iff.1 untouched).1 _ hk
  simpa using spared

theorem not_cutShort_of_untouched (hk : .cutShort stay ∈ s.marks m) :
    ¬ (stay.file = f ∧ stay.page = p) := by
  have spared := List.any_eq_false.1 (Bool.or_eq_false_iff.1 untouched).1 _ hk
  simpa using spared

theorem not_expelled_of_untouched {key : PageKey} (hk : .expelled key ∈ s.marks m) :
    key ≠ s.labels.key f p := by
  have spared := List.any_eq_false.1 (Bool.or_eq_false_iff.1 untouched).1 _ hk
  simpa using spared

theorem not_delete_of_untouched (hm : m = .resume t fault) :
    s.tasks.find? t ≠ some (.delete f p) := by
  subst hm
  intro ht
  have spared := (Bool.or_eq_false_iff.1 untouched).2
  simp [ht, Task.deletes] at spared

end Untouched

def Secure (s : System) (f : FileNo) (p : PageNo) : Prop :=
  s.IsStored f p ∨ ∃ i o, s.pool.ledger.occupant? i = some o ∧ o.file = f ∧ o.page = p ∧ o.IsUnsaved

theorem Regular.cutShort_of_read (hs : s.Regular) (hx : s.transferOf t = some ⟨.load, stay⟩)
    {files : Catalog} {page : Page}
    (hr : s.files.read fault stay.file stay.page (.page (s.pool.buffer stay.frame)) =
      (files, .ok page)) (cut : Fault.cuts fault = true) :
    .cutShort stay ∈ s.marks (.resume t fault) := by
  obtain ⟨file, page', k, w, ht⟩ := hs.orderly.fetch_of_load hx
  simp [marks, ht, marksOf, hr, cut]

theorem Regular.page?_of_written (hs : s.Regular) (ha : s.files.Apart)
    (he : s.ended? m = some (⟨.writeBack, stay⟩, true)) :
    (s.after m).files.page? stay.file stay.page = s.content stay.file stay.page := by
  cases m with
  | resume t fault =>
    obtain ⟨x, hx, he⟩ := Option.map_eq_some_iff.1 he
    obtain ⟨rfl, ok⟩ := Prod.mk.inj he
    obtain ⟨files, r, hr⟩ : ∃ files r, s.files.write fault stay.file stay.page
      (.page (s.pool.buffer stay.frame)) = (files, r) := ⟨_, _, rfl⟩
    have after : (s.after (.resume t fault)).files = files := by
      rw [files_resume_move hx, finishTransfer, finishWriteBack, hr]
      cases r <;> rfl
    rw [after, content_of_shown hs (hs.shown_of_writeBack hx)]
    simp only [succeeds, hr] at ok
    obtain ⟨-, ⟨-, e, rfl⟩ | pages⟩ := Catalog.write_cases ha hr
    · cases ok
    · rw [pages, if_pos ⟨rfl, rfl⟩]
  | cancel t =>
    obtain ⟨x, -, he⟩ := Option.map_eq_some_iff.1 he
    cases (Prod.mk.inj he).2
  | _ => cases he

section Move

variable (hs : s.Sturdy) (ha : s.files.Apart) (hp : s.Permits m)
  (untouched : s.Touches f p m = false)
include hs ha hp untouched

theorem page?_after (live : s.files.isLive f p = true) :
    (s.after m).files.page? f p = s.files.page? f p ∨
      (s.after m).files.page? f p = s.content f p := by
  have written {t : TaskId} {stay : Stay} {files : Catalog}
      (hx : s.transferOf t = some ⟨.writeBack, stay⟩)
      (pages : ∀ g n, files.page? g n = if stay.file = g ∧ stay.page = n then
        some (s.pool.buffer stay.frame) else s.files.page? g n) :
      files.page? f p = s.files.page? f p ∨ files.page? f p = s.content f p := by
    by_cases this : stay.file = f ∧ stay.page = p
    · right
      obtain ⟨rfl, rfl⟩ := this
      rw [pages, if_pos ⟨rfl, rfl⟩]
      exact (content_of_shown hs.regular (hs.regular.shown_of_writeBack hx)).symm
    · exact .inl ((pages f p).trans (if_neg this))
  have deed : s.Does m (s.after m) := does_after hs.size_pos hp
  unfold Does at deed
  generalize (s.after m).pool.ledger = l, (s.after m).pool.buffers = b,
    (s.after m).files = files at deed ⊢
  cases deed with
  | load hx hr => exact .inl (congrFun (congrFun (Catalog.read_cases ha hr).2.1 f) p)
  | save hx hr =>
    obtain ⟨-, ⟨same, -⟩ | pages⟩ := Catalog.write_cases ha hr
    · exact .inl (congrFun (congrFun same f) p)
    · exact written hx pages
  | @strike _ stay hx =>
    have call : s.files.write none stay.file stay.page (.page (s.pool.buffer stay.frame)) =
      (_, _) := rfl
    obtain ⟨-, ⟨same, -⟩ | pages⟩ := Catalog.write_cases ha call
    · exact .inl (congrFun (congrFun same f) p)
    · exact written hx pages
  | @allocate _ fault file _ ht =>
    have call : s.files.allocate fault file = (_, _) := rfl
    rcases (Catalog.allocate_cases ha call).2 f p with same | ⟨rfl, new, -⟩
    · exact .inl same
    · exact (Bool.false_ne_true ((Catalog.not_isLive_of_allocate new).symm.trans live)).elim
  | delete ht =>
    refine .inl (Catalog.page?_delete_of_ne ha ?_)
    rintro ⟨rfl, rfl⟩
    exact not_delete_of_untouched untouched rfl ht
  | _ => exact .inl rfl

theorem buffer_after (hd : s.files.Distinct) (hf : s.hasFile f)
    (shown : (s.after m).pool.ledger.shown i = some (f, p)) :
    s.content f p = some ((s.after m).pool.buffer i) := by
  have hr := hs.regular
  obtain ⟨o', ho', hio', rfl, rfl⟩ := Ledger.shown_eq_some.1 shown
  cases (does_after hs.size_pos hp).origin hr ho' with
  | @stayed o ho hfile hpage hg hio =>
    have before : s.pool.ledger.shown i = some (o'.file, o'.page) :=
      Ledger.shown_eq_some.2 ⟨o, ho, fun h => hio' (hio.2 h), hfile.symm, hpage.symm⟩
    rw [content_of_shown hr before]
    cases touch_after hs hp i with
    | none hb => rw [hb]
    | load hx hi =>
      obtain ⟨q, -, -, hq, hload⟩ := hr.seat hx
      rw [hi] at hq
      obtain rfl := Option.some.inj (ho.symm.trans hq)
      exact (hio' (hio.2 hload)).elim
    | @edit _ _ stay _ e ht hi hk =>
      subst hi
      have mark : .edited stay e ∈ s.marks m := by rw [hk]; exact List.mem_singleton_self _
      exact (not_shown_of_untouched untouched mark before).elim
  | @loaded t fault stay files page hm hx hread hi hstay hg hb =>
    subst hm hi
    have file : stay.file = o'.file := congrArg Stay.file hstay.symm
    have number : stay.page = o'.page := congrArg Stay.page hstay.symm
    have whole : Fault.cuts fault = false := by
      by_contra cut
      have mark := hr.cutShort_of_read hx hread (by simpa using cut)
      exact not_cutShort_of_untouched untouched mark ⟨file, number⟩
    have delivered := (Catalog.read_cases ha hread).2.2 page rfl whole
    have within : stay.frame < s.pool.buffers.size := by
      rw [hs.placed.sized]
      exact hr.frame_lt hx
    -- The page was in no other frame while it was being loaded.
    obtain ⟨o, hat, hload, hofile, hopage⟩ := hr.escorted.occupantAt hx
    have ho := (Ledger.occupantAt_frame.1 hat).2
    have hidden (j : FrameNo) : s.pool.ledger.shown j ≠ some (o'.file, o'.page) := by
      intro hj
      obtain ⟨r, hr', hio, hrf, hrp⟩ := Ledger.shown_eq_some.1 hj
      obtain ⟨rfl, rfl⟩ := hr.sole hr' ho (by rw [hrf, hofile, file]) (by rw [hrp, hopage, number])
      exact hio hload
    rw [content_of_unshown hr (fun _ _ ho => hs.placed.opened ho) hd hf hidden, ← file, ← number,
      delivered, Pool.buffer, hb, ← Pool.buffer, Pool.buffer_setBuffer, if_pos ⟨rfl, within⟩]
  | arrived hm ht hk hg hio => exact (hio' hio).elim

/-- The mark of a page goes away only when its file has got what the page contains. -/
theorem unsaved_of_untouched (ho : s.pool.ledger.occupant? i = some o) (hf : o.file = f)
    (hpage : o.page = p) (unsaved : o.IsUnsaved) :
    (s.after m).files.page? f p = s.content f p ∨
      ∃ o', (s.after m).pool.ledger.occupant? i = some o' ∧ o'.file = f ∧ o'.page = p ∧
        o'.IsUnsaved := by
  have hr := hs.regular
  subst hf hpage
  have busy : o.standing ≠ .available ∨ o.dirty = true := by
    rcases unsaved.2 with dirty | writing
    · exact .inr dirty
    · exact .inl fun available =>
        nomatch (Occupant.standing_eq_available.1 available).2.symm.trans writing
  have keeps : s.pool.ledger.Keeps (s.after m).pool.ledger i o := by
    rcases fares hr hp ho with hk | ⟨loading, -⟩ | ⟨available, clean | disposed⟩
    · exact hk
    · exact (unsaved.1 loading).elim
    · rcases busy with busy | dirty
      · exact (busy available).elim
      · cases clean.symm.trans dirty
    · have mark := hr.expelled_of_disposes ho available disposed
      exact (not_expelled_of_untouched untouched mark rfl).elim
  obtain ⟨o', ho', hfile, hpage, hg⟩ := keeps
  have still (h : o'.IsUnsaved) : (s.after m).files.page? o.file o.page = s.content o.file o.page ∨
      ∃ o', (s.after m).pool.ledger.occupant? i = some o' ∧ o'.file = o.file ∧ o'.page = o.page ∧
        o'.IsUnsaved := .inr ⟨o', ho', hfile, hpage, h⟩
  cases he : s.ended? m with
  | none =>
    cases fate_after hr hp he ho' with
    | arrived _ _ hnew => omega
    | stayed hq _ alters =>
      obtain rfl := Option.some.inj (ho.symm.trans hq)
      refine still ?_
      cases alters with
      | used | pinned => exact unsaved
      | claimed => exact ⟨by simp [Occupant.claimed], .inr rfl⟩
      | givenBack | unpinned =>
        exact ⟨unsaved.1, unsaved.2.imp_left fun dirty => by simp [Occupant.returned, dirty]⟩
  | some ended =>
    obtain ⟨x, ok⟩ := ended
    obtain ⟨-, q, hq, ⟨-, rfl⟩ | ⟨hst, hio, ⟨rfl, rfl⟩ | ⟨-, -, rfl⟩⟩⟩ := hr.of_ended he ho'
    · obtain rfl := Option.some.inj (ho.symm.trans hq)
      exact still unsaved
    · obtain rfl := Option.some.inj (ho.symm.trans hq)
      obtain ⟨kind, stay⟩ := x
      obtain rfl : stay = s.pool.ledger.stayOf i o := hst
      cases kind with
      | load => exact (unsaved.1 hio).elim
      | writeBack => exact .inl (hr.page?_of_written ha he)
    · exact still ⟨by simp, .inl rfl⟩

/-- A page that nobody touches contains the same afterwards, and nothing of it can be lost. -/
theorem Secure.move (secure : s.Secure f p) (placed' : (s.after m).Placed) (hd : s.files.Distinct)
    (live : s.files.isLive f p = true) :
    (s.after m).content f p = s.content f p ∧ (s.after m).Secure f p := by
  have acts := acts_after hs.regular.orderly hs.size_pos hp
  have hs' := acts.regular hs.regular
  have hf := hasFile_of_isLive live
  have due : (s.after m).files.page? f p = s.content f p ∨
      ∃ i o', (s.after m).pool.ledger.occupant? i = some o' ∧ o'.file = f ∧ o'.page = p ∧
        o'.IsUnsaved := by
    rcases secure with stored | ⟨i, o, ho, hof, hop, unsaved⟩
    · rcases page?_after hs ha hp untouched live with same | now
      · exact .inl (same.trans stored)
      · exact .inl now
    · exact (unsaved_of_untouched hs ha hp untouched ho hof hop unsaved).imp_right
        fun ⟨o', rest⟩ => ⟨i, o', rest⟩
  have content : (s.after m).content f p = s.content f p := by
    by_cases seen : ∃ i, (s.after m).pool.ledger.shown i = some (f, p)
    · obtain ⟨i, hi⟩ := seen
      rw [content_of_shown hs' hi, buffer_after hs ha hp untouched hd hf hi]
    · have hf' : (s.after m).hasFile f := by
        rwa [hasFile, Catalog.size_of_registry acts.registry]
      rw [content_of_unshown hs' (fun _ _ ho => placed'.opened ho) (hd.congr acts.registry) hf'
        (not_exists.1 seen)]
      refine due.resolve_right ?_
      rintro ⟨i, o', ho', hof, hop, unsaved⟩
      exact seen ⟨i, Ledger.shown_eq_some.2 ⟨o', ho', unsaved.1, hof, hop⟩⟩
  exact ⟨content, due.imp_left fun now => now.trans content.symm⟩

end Move

/-- A file has the page, the page contains `q`, and nothing of it can be lost. -/
structure Intact (s : System) (f : FileNo) (p : PageNo) (q : Option Page) : Prop where
  live : s.files.isLive f p = true
  content : s.content f p = q
  secure : s.Secure f p

theorem intact_of_absent (live : s.files.isLive f p = true)
    (hk : s.pool.ledger.table.find? (s.labels.key f p) = none) :
    s.Intact f p (s.files.page? f p) where
  live := live
  content := content_of_absent hk
  secure := .inl (content_of_absent hk).symm

theorem Intact.move (h : s.Intact f p q) (hs : s.Sturdy) (hd : s.files.Distinct)
    (ha : s.files.Apart) (hp : s.Permits m) (placed' : (s.after m).Placed)
    (untouched : s.Touches f p m = false) : (s.after m).Intact f p q := by
  obtain ⟨content, secure⟩ := h.secure.move hs ha hp untouched placed' hd h.live
  refine ⟨?_, content.trans h.content, secure⟩
  exact (does_after hs.size_pos hp).isLive h.live fun _ _ => not_delete_of_untouched untouched

end System

/-! ### Runs -/

section Run

variable {allowed : Move → Prop} {n : Nat} (hn : 0 < n) {c : Catalog} {h₀ h : History}
  {s₀ s : System} {f : FileNo} {p : PageNo} {q : Option Page}
include hn

theorem Reaches.apart (ha : c.Apart) (run : Reaches allowed (.new n c) h s) : s.files.Apart := by
  induction run with
  | start => exact ha
  | @move h s m run possible _ ih =>
    have hs := run.shared.regular hn
    exact ((System.does_after hs.consistent.size_pos possible).served ih).apart ih

theorem Reaches.tidy (tidy : c.Tidy) (run : Reaches allowed (.new n c) h s) : s.files.Tidy := by
  induction run with
  | start => exact tidy
  | @move h s m run possible _ ih =>
    have hs := run.shared.regular hn
    exact ((System.does_after hs.consistent.size_pos possible).served ih.apart).tidy ih

/-- As long as nobody touches it, a page contains the same and nothing of it can be lost. -/
theorem Reaches.intact (hd : c.Distinct) (ha : c.Apart)
    (run : Reaches (fun _ => True) (.new n c) h₀ s₀) (intact : s₀.Intact f p q)
    (since : Reaches allowed s₀ h s) (untouched : ∀ x ∈ h, x.1.Touches f p x.2 = false) :
    s.Intact f p q := by
  induction since with
  | start => exact intact
  | @move h s m since possible _ ih =>
    have total : Reaches (fun _ => True) (.new n c) (h ++ h₀) s :=
      run.append (since.mono fun _ _ => trivial)
    have before := ih fun x hx => untouched x (List.mem_cons_of_mem _ hx)
    exact before.move (total.shared.sturdy hn hd) (total.shared.distinct hn hd)
      (total.apart hn ha) possible ((total.move possible trivial).shared.placed hn hd)
      (untouched (s, m) List.mem_cons_self)

end Run

end SecondChance
