import SecondChance.Proofs.System.Disposal
import SecondChance.Proofs.System.ErrandAgreement
import SecondChance.Proofs.System.Provenance

/-!
Disposing of a page by somebody who has the pool to himself.

The page is taken out of its frame and then deleted, and in between neither the pool nor the files
are what they will be in the end. So the beginning of a disposal is compared with its end. All that
may have happened to the frames is that one page has left which nobody had; and all other pages are
where they were.
-/

namespace SecondChance

theorem Catalog.page?_delete {c : Catalog} (ha : c.Apart) {f : FileNo} (hf : f < c.files.size)
    (p : PageNo) (g : FileNo) (n : PageNo) :
    (c.delete none f p).1.page? g n = if f = g ∧ p = n then none else c.page? g n := by
  obtain ⟨x, shape⟩ := exists_shape hf
  rw [(delete_whole ha shape).1.page?]
  by_cases hg : f = g
  · subst hg
    simp
  · simp [hg]

namespace System

variable {s v : System} {ks : List Mark} {d : Desk} {f g : FileNo} {p n : PageNo} {i : FrameNo}
  {o : Occupant}

/-- Apart from tasks and files, all that may have happened is that the page has left, and nobody had
it. -/
structure Sheds (f : FileNo) (p : PageNo) (s v : System) : Prop where
  handles : v.handles = s.handles
  buffers : v.pool.buffers = s.pool.buffers
  registry : v.files.registry = s.files.registry
  ledger : v.pool.ledger = s.pool.ledger ∨ ∃ i o, s.pool.ledger.occupant? i = some o ∧
    o.standing = .available ∧ o.file = f ∧ o.page = p ∧
    v.pool.ledger = s.pool.ledger.vacate i (o.key s.labels)

namespace Sheds

variable (h : Sheds f p s v)
include h

theorem before (ho : v.pool.ledger.occupant? i = some o) : s.pool.ledger.occupant? i = some o := by
  rcases h.ledger with same | ⟨j, q, hq, -, -, -, left⟩
  · rwa [same] at ho
  · rw [left] at ho
    exact Ledger.of_occupant?_vacate hq ho

theorem remains (ho : s.pool.ledger.occupant? i = some o) (hp : o.pins ≠ 0) :
    v.pool.ledger.occupant? i = some o := by
  rcases h.ledger with same | ⟨j, q, hq, available, -, -, left⟩
  · rwa [same]
  · have hj : j ≠ i := by
      rintro rfl
      obtain rfl := Option.some.inj (ho.symm.trans hq)
      exact hp (Occupant.standing_eq_available.1 available).1
    rw [left, Ledger.occupant?_vacate (Ledger.lt_size_of_occupant? hq), if_neg hj, ho]

theorem generation (i : FrameNo) : v.pool.ledger.generation i = s.pool.ledger.generation i := by
  rcases h.ledger with same | ⟨j, q, -, -, -, -, left⟩
  · rw [same]
  · rw [left, Ledger.generation_vacate]

theorem shown (hi : v.pool.ledger.shown i = some (g, n)) :
    s.pool.ledger.shown i = some (g, n) := by
  obtain ⟨o, ho, rest⟩ := Ledger.shown_eq_some.1 hi
  exact Ledger.shown_eq_some.2 ⟨o, h.before ho, rest⟩

theorem still_shown (hi : s.pool.ledger.shown i = some (g, n)) (other : ¬ (f = g ∧ p = n)) :
    v.pool.ledger.shown i = some (g, n) := by
  rcases h.ledger with same | ⟨j, q, hq, -, hf, hp, left⟩
  · rwa [same]
  · obtain ⟨o, ho, hio, rfl, rfl⟩ := Ledger.shown_eq_some.1 hi
    have hj : j ≠ i := by
      rintro rfl
      obtain rfl := Option.some.inj (ho.symm.trans hq)
      exact other ⟨hf.symm, hp.symm⟩
    refine Ledger.shown_eq_some.2 ⟨o, ?_, hio, rfl, rfl⟩
    rw [left, Ledger.occupant?_vacate (Ledger.lt_size_of_occupant? hq), if_neg hj, ho]

theorem isClean (hc : v.IsClean i) : s.IsClean i := by
  obtain ⟨⟨o, ho, rests⟩, clean⟩ := hc
  refine ⟨⟨o, h.before ho, rests⟩, fun k x hk hx => clean k x ?_ ?_⟩
  · rw [h.handles, hk]
  · rwa [h.generation]

theorem accounted (ha : s.pool.ledger.Accounted (s.claims ks) (lostIn ks)) :
    v.pool.ledger.Accounted (v.claims ks) (lostIn ks) := by
  have claims : v.claims ks = s.claims ks := by
    funext i g
    rw [System.claims, h.handles, System.claims]
  rw [claims]
  rcases h.ledger with same | ⟨j, q, hq, available, -, -, left⟩
  · rwa [same]
  · rw [left]
    exact ha.vacate hq available _

theorem size : v.pool.ledger.size = s.pool.ledger.size := by
  rcases h.ledger with same | ⟨j, q, -, -, -, -, left⟩
  · rw [same]
  · rw [left, Ledger.size_vacate]

theorem hasFile_iff (f : FileNo) : v.hasFile f ↔ s.hasFile f := by
  rw [hasFile, hasFile, Catalog.size_of_registry h.registry]

theorem buffer (i : FrameNo) : v.pool.buffer i = s.pool.buffer i := by
  rw [Pool.buffer, h.buffers, Pool.buffer]

theorem seated (hs : s.Seated) (idle : ∀ t, v.tasks.find? t = none) : v.Seated where
  sized := by rw [h.buffers, h.size, hs.sized]
  opened ho := (h.hasFile_iff _).2 (hs.opened (h.before ho))
  placed hh ho := by
    obtain ⟨hg, ho⟩ := Ledger.occupantAt_frame.1 ho
    rw [h.generation] at hg
    rw [h.handles] at hh
    exact hs.placed hh (Ledger.occupantAt_frame.2 ⟨hg, h.before ho⟩)
  inside ht := by cases (idle _).symm.trans ht
  writing ht := by cases (idle _).symm.trans ht

theorem sound (hs : s.Sound ks) (still : v.Quiescent) (apart : v.files.Apart)
    (pages : ∀ i f p, v.pool.ledger.shown i = some (f, p) →
      v.files.page? f p = s.files.page? f p) : v.Sound ks where
  regular := still.regular
  faithful := {
    accounted := h.accounted hs.faithful.accounted
    seated := h.seated hs.faithful.seated still.idle
    distinct := hs.faithful.distinct.congr h.registry
    apart := apart
    backed := fun i f p hc hi => by
      rw [pages i f p hi, h.buffer]
      exact hs.faithful.backed i f p (h.isClean hc) (h.shown hi)
    undisposed := fun ht => by cases (still.idle _).symm.trans ht }
  rooted i f p hi := by
    rw [pages i f p hi]
    exact hs.rooted i f p (h.shown hi)

theorem lends (hs : s.Stands d) : v.Lends d.lent where
  others hk := by rw [h.handles, hs.lends.others hk]
  nothing hn := by rw [h.handles, hs.lends.nothing hn]
  page hp := by
    obtain ⟨x, hx, hf, hp, -⟩ := hs.lends.page hp
    obtain ⟨-, o, hat, pinned, hio, -⟩ := hs.held hx
    obtain ⟨hg, ho⟩ := Ledger.occupantAt_frame.1 hat
    exact ⟨x, by rw [h.handles, hx], hf, hp, o,
      Ledger.occupantAt_frame.2 ⟨(h.generation _).trans hg, h.remains ho pinned⟩, hio⟩

theorem stands (hs : s.Stands d) (still : v.Quiescent) {c : Catalog} (apart : v.files.Apart)
    (apart' : c.Apart) (registry : c.registry = d.files.registry)
    (shape : v.files.shape? = c.shape?)
    (seen : ∀ i g n, v.pool.ledger.shown i = some (g, n) →
      v.files.page? g n = s.files.page? g n ∧ c.page? g n = d.files.page? g n)
    (unseen : ∀ g n, s.hasFile g → (∀ i, v.pool.ledger.shown i ≠ some (g, n)) →
      v.files.page? g n = c.page? g n) : v.Stands { d with files := c } := by
  obtain ⟨ks, mirrors⟩ := hs.mirrors
  have sound := mirrors.sound
  have sound' : v.Sound ks := h.sound sound still apart fun i g n hi => (seen i g n hi).1
  have lends : v.Lends d.lent := h.lends hs
  refine ⟨⟨ks, sound', mirrors.undetached, apart', ?_, shape, fun {g} hg n => ?_⟩, lends⟩
  · rw [h.registry, mirrors.registry, registry]
  · by_cases shown : ∃ i, v.pool.ledger.shown i = some (g, n)
    · obtain ⟨i, hi⟩ := shown
      rw [content_of_shown sound'.regular hi, (seen i g n hi).2,
        ← mirrors.content ((h.hasFile_iff g).1 hg), h.buffer,
        content_of_shown sound.regular (h.shown hi)]
    · have hidden := not_exists.1 shown
      have faithful := sound'.faithful
      rw [content_of_hidden sound'.regular faithful.seated faithful.distinct hg hidden,
        unseen g n ((h.hasFile_iff g).1 hg) hidden]

end Sheds

theorem Stands.page?_of_hidden (h : s.Stands d) (hf : s.hasFile f)
    (hidden : ∀ i, s.pool.ledger.shown i ≠ some (f, p)) :
    s.files.page? f p = d.files.page? f p := by
  obtain ⟨ks, mirrors⟩ := h.mirrors
  have hs := mirrors.sound
  rw [← mirrors.content hf,
    content_of_hidden hs.regular hs.faithful.seated hs.faithful.distinct hf hidden]

theorem Stands.isSome_page? (h : s.Stands d) (hf : s.hasFile f) (p : PageNo) :
    ((s.files.page? f p).map fun _ => ()) = (d.files.page? f p).map fun _ => () := by
  obtain ⟨ks, mirrors⟩ := h.mirrors
  have hs := mirrors.sound
  by_cases shown : ∃ i, s.pool.ledger.shown i = some (f, p)
  · obtain ⟨i, hi⟩ := shown
    obtain ⟨q, hq⟩ := Option.ne_none_iff_exists'.1 (hs.rooted i f p hi)
    rw [hq, ← mirrors.content hf, content_of_shown hs.regular hi]
    rfl
  · rw [h.page?_of_hidden hf (not_exists.1 shown)]

theorem Sheds.stands_same (h : Sheds f p s v) (hs : s.Stands d) (still : v.Quiescent)
    (ledger : v.pool.ledger = s.pool.ledger) (files : v.files = s.files) : v.Stands d := by
  obtain ⟨ks, mirrors⟩ := hs.mirrors
  refine h.stands hs still ?_ mirrors.apart rfl ?_ (fun _ _ _ _ => ⟨by rw [files], rfl⟩)
    fun g n hg hidden => ?_
  · rw [files]
    exact mirrors.sound.faithful.apart
  · rw [files, mirrors.shape?]
  · rw [files]
    exact hs.page?_of_hidden hg (ledger ▸ hidden)

/-- Once the page is in no frame, deleting it comes to the same behind the pool and at the desk. -/
theorem Sheds.stands_deleted (h : Sheds f p s v) (hs : s.Stands d) (still : v.Quiescent)
    (hf : f < d.files.files.size)
    (gone : v.pool.ledger.table.find? (s.labels.key f p) = none)
    (files : v.files = (s.files.delete none f p).1) :
    v.Stands { d with files := (d.files.delete none f p).1 } ∧
      (s.files.delete none f p).2 = (d.files.delete none f p).2 := by
  obtain ⟨ks, mirrors⟩ := hs.mirrors
  have sound := mirrors.sound
  have labels : v.labels = s.labels := Catalog.labels_of_registry h.registry
  have names : s.files.labels = d.files.labels := mirrors.labels_eq
  have page := Catalog.page?_delete mirrors.apart hf p
  have page' := Catalog.page?_delete sound.faithful.apart ((hs.hasFile_iff f).2 hf) p
  obtain ⟨x, shape⟩ := Catalog.exists_shape hf
  have shape' : s.files.shape? f = some x := by rw [mirrors.shape?, shape]
  obtain ⟨revises, result⟩ := Catalog.delete_whole (n := p) mirrors.apart shape
  obtain ⟨revises', result'⟩ := Catalog.delete_whole (n := p) sound.faithful.apart shape'
  have other {i : FrameNo} {g : FileNo} {n : PageNo}
      (hi : v.pool.ledger.shown i = some (g, n)) : ¬ (f = g ∧ p = n) := by
    rintro ⟨rfl, rfl⟩
    obtain ⟨o, ho, -, rfl, rfl⟩ := Ledger.shown_eq_some.1 hi
    have found := still.regular.consistent.find?_key ho
    rw [Occupant.key, labels, gone] at found
    cases found
  refine ⟨h.stands hs still (files ▸ revises'.apart) revises.apart (Catalog.registry_delete ..) ?_
    (fun i g n hi => ?_) fun g n hg hidden => ?_, ?_⟩
  · funext g
    rw [files, revises.shape?, revises'.shape?, mirrors.shape?]
  · rw [files, page, page', if_neg (other hi), if_neg (other hi)]
    exact ⟨rfl, rfl⟩
  · rw [files, page, page']
    by_cases same : f = g ∧ p = n
    · rw [if_pos same, if_pos same]
    · rw [if_neg same, if_neg same]
      exact hs.page?_of_hidden hg fun i hi => hidden i (h.still_shown hi same)
  · rw [result, result', hs.isSome_page? ((hs.hasFile_iff f).2 hf), names]

/-! ### The steps of a disposal -/

/-- Expelling the page changes nothing apart from tasks and files but that the page may have left,
and nobody had it. -/
theorem sheds_of_expels {l : Ledger} {r : Except PoolError (Option FrameNo)} (hs : s.Stands d)
    (hf : s.hasFile f) (handles : v.handles = s.handles) (buffers : v.pool.buffers = s.pool.buffers)
    (registry : v.files.registry = s.files.registry) (ledger : v.pool.ledger = l)
    (expels : s.pool.ledger.Expels (s.labels.key f p) (s.name f) p l r) : Sheds f p s v := by
  refine ⟨handles, buffers, registry, ?_⟩
  rw [ledger]
  cases expels with
  | @emptied i o hk ho available =>
    obtain ⟨ks, mirrors⟩ := hs.mirrors
    obtain ⟨hof, hop⟩ := mirrors.sound.eq_of_find? hf hk ho
    exact .inr ⟨i, o, ho, available, hof, hop, by rw [Occupant.key, hof, hop]⟩
  | _ => exact .inl rfl

theorem Stands.unlent_of_expels (hs : s.Stands d) {l : Ledger} (regular : s.Regular)
    (expels : s.pool.ledger.Expels (s.labels.key f p) (s.name f) p l (.ok none)) :
    d.lent ≠ some (f, p) := by
  intro hd
  obtain ⟨x, hx, rfl, rfl, -⟩ := hs.lends.page hd
  obtain ⟨-, o, hat, pinned, -, hof, hop⟩ := hs.held hx
  obtain ⟨-, ho⟩ := Ledger.occupantAt_frame.1 hat
  have found := regular.consistent.find?_key ho
  rw [Occupant.key, hof, hop] at found
  cases expels with
  | absent hk => cases hk.symm.trans found
  | emptied hk ho' available =>
    obtain rfl := Option.some.inj (hk.symm.trans found)
    obtain rfl := Option.some.inj (ho.symm.trans ho')
    exact pinned (Occupant.standing_eq_available.1 available).1

/-- The page is taken out of the pool, or has been. -/
structure Disposing (s : System) (d : Desk) (f : FileNo) (p : PageNo) (task : Task) (v : System) :
    Prop where
  files : v.files = s.files
  sheds : Sheds f p s v
  task : (task = .expel f p (s.labels.key f p) none ∧ v.pool.ledger = s.pool.ledger) ∨
    (task = .delete f p ∧ v.pool.ledger.table.find? (s.labels.key f p) = none ∧
      d.lent ≠ some (f, p))

section Dispose

variable (hs : s.Stands d) (start : s.Quiescent) (alone : v.Alone 0)
include hs start alone

theorem disposes_expel (hf : s.hasFile f)
    (ht : v.tasks.find? 0 = some (.expel f p (s.labels.key f p) none))
    (h : Disposing s d f p (.expel f p (s.labels.key f p) none) v)
    (ledger : v.pool.ledger = s.pool.ledger) :
    Leads (Disposing s d f p) (Concurs (d.dispose f p)) (v.after (.resume 0 none))
      (v.advance 0 none (.expel f p (s.labels.key f p) none)).2.2 := by
  have name : v.name f = s.name f := by rw [System.name, System.labels, h.files]; rfl
  have still (ended : (v.after (.resume 0 none)).tasks.find? 0 = none) :=
    (alone.resume ht none).quiescent ended
  have tasks := find?_after_resume ht none
  obtain ⟨l, r, ha⟩ : ∃ l r, s.pool.ledger.expel (s.labels.key f p) (s.name f) p = (l, r) :=
    ⟨_, _, rfl⟩
  have expels := Ledger.expel_cases ha
  have left : (v.advance 0 none (.expel f p (s.labels.key f p) none)).1 = v.setLedger l := by
    simp only [advance, lookForExpel, ledger, name, ha]
    rcases r with e | (_ | i) <;> rfl
  have after : v.after (.resume 0 none) = _ := resume_fst ht
  rw [left] at after
  have handles : (v.after (.resume 0 none)).handles = s.handles := by
    rw [after, handles_turnTo]
    exact h.sheds.handles
  have pool : (v.after (.resume 0 none)).pool = (v.setLedger l).pool := by
    rw [after, pool_turnTo]
  have files : (v.after (.resume 0 none)).files = s.files := by
    rw [after, files_turnTo]
    exact h.files
  have sheds := sheds_of_expels hs hf handles (by rw [pool]; exact h.sheds.buffers)
    (by rw [files]) (by rw [pool]; rfl) expels
  have onward (gone : l.table.find? (s.labels.key f p) = none)
      (unlent : d.lent ≠ some (f, p)) :
      Disposing s d f p (.delete f p) (v.after (.resume 0 none)) :=
    ⟨files, sheds, .inr ⟨rfl, by rw [pool]; exact gone, unlent⟩⟩
  have regular := start.regular
  simp only [advance, lookForExpel, ledger, name, ha] at tasks ⊢
  cases expels with
  | astray hk ho => exact (regular.consistent.occupant?_ne_none hk ho).elim
  | wait _ ho busy =>
    have idle := start.alone.io_eq_idle (transferOf_eq_none (start.idle 0)) ho
    exact ((Occupant.standing_eq_busy.1 busy).2 idle).elim
  | pinned hk ho hp =>
    have lent := hs.lent_of_pinned start.alone (transferOf_eq_none (start.idle 0)) ho hp
    obtain ⟨ks, mirrors⟩ := hs.mirrors
    obtain ⟨rfl, rfl⟩ := mirrors.sound.eq_of_find? hf hk ho
    have stands := sheds.stands_same hs (still tasks) (by rw [pool]; rfl) files
    rw [Desk.dispose, if_pos lent, ← hs.name_eq]
    exact ⟨stands, rfl⟩
  | absent hk => exact onward hk (hs.unlent_of_expels regular (.absent hk))
  | emptied hk ho available =>
    exact onward (Table.find?_erase_self ..)
      (hs.unlent_of_expels regular (.emptied hk ho available))

omit start in
theorem disposes_delete (hf : f < d.files.files.size)
    (ht : v.tasks.find? 0 = some (.delete f p)) (h : Disposing s d f p (.delete f p) v)
    (gone : v.pool.ledger.table.find? (s.labels.key f p) = none)
    (unlent : d.lent ≠ some (f, p)) :
    Leads (Disposing s d f p) (Concurs (d.dispose f p)) (v.after (.resume 0 none))
      (v.advance 0 none (.delete f p)).2.2 := by
  obtain ⟨files, r, hr⟩ : ∃ files r, s.files.delete none f p = (files, r) := ⟨_, _, rfl⟩
  obtain ⟨events, x, advanced, hx⟩ : ∃ events x,
      v.advance 0 none (.delete f p) = (v.setFiles files, events, .ends x) ∧
        (r = .ok () ∧ x = .done ∨ ∃ e, r = .error e ∧ x = .refused (.store e)) := by
    simp only [advance, h.files, hr]
    cases r with
    | error e => exact ⟨_, _, rfl, .inr ⟨e, rfl, rfl⟩⟩
    | ok => exact ⟨_, _, rfl, .inl ⟨rfl, rfl⟩⟩
  have after : v.after (.resume 0 none) = (v.setFiles files).endTask 0 := by
    rw [System.after, resume_fst ht, advanced]
    rfl
  have ended : (v.after (.resume 0 none)).tasks.find? 0 = none := by
    rw [after]
    exact Table.find?_erase_self ..
  have still := (alone.resume ht none).quiescent ended
  have changed : files = (s.files.delete none f p).1 := by rw [hr]
  have registry := Catalog.registry_delete s.files none f p
  rw [after] at still ⊢
  have sheds : Sheds f p s ((v.setFiles files).endTask 0) :=
    ⟨h.sheds.handles, h.sheds.buffers, changed ▸ registry, h.sheds.ledger⟩
  obtain ⟨stands, result⟩ := sheds.stands_deleted hs still hf gone changed
  rw [advanced, Desk.dispose, if_neg unlent]
  rw [hr] at result
  generalize d.files.delete none f p = y at stands result ⊢
  obtain ⟨c, r'⟩ := y
  obtain rfl : r = r' := result
  obtain ⟨rfl, rfl⟩ | ⟨e, rfl, rfl⟩ := hx
  · exact ⟨stands, rfl⟩
  · exact ⟨stands, rfl⟩

end Dispose

theorem agree_dispose (hs : s.Stands d) (start : s.Quiescent) (hf : f < d.files.files.size)
    (p : PageNo) : Agree (s.carryOut (.dispose f p)) ((d.dispose f p).map id .ended) := by
  have admits : s.Admits (.dispose f p) := (hs.hasFile_iff f).2 hf
  refine start.agree (I := Disposing s d f p) admits ?_ fun {v task} alone ht disposing => ?_
  · exact ⟨rfl, ⟨rfl, rfl, rfl, .inl rfl⟩, .inl ⟨rfl, rfl⟩⟩
  · obtain ⟨rfl, ledger⟩ | ⟨rfl, gone, unlent⟩ := disposing.task
    · exact disposes_expel hs start alone admits ht disposing ledger
    · exact disposes_delete hs alone hf ht disposing gone unlent

end System

end SecondChance
