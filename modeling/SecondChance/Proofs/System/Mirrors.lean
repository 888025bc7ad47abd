import SecondChance.Proofs.Store.Shapes
import SecondChance.Proofs.System.Flushes
import SecondChance.Proofs.System.LoneOperations

/-!
What is to be seen through a pool, set against files that are used directly.

The files behind a pool lag behind what its borrowers have changed, and when they catch up is up to the
pool. So a pool is compared with a second catalogue, in which every change is made at once: the pool
*mirrors* it if its files go by the same shapes and everybody who goes through the pool sees the pages
that the catalogue has. Whatever a pool does of its own accord, be it loading, writing back or flushing,
leaves that as it is.
-/

namespace SecondChance

namespace Catalog

variable {c c' : Catalog} {f : FileNo} {x : Shape}

theorem exists_shape (hf : f < c.files.size) : ∃ x, c.shape? f = some x :=
  ⟨_, shape?_eq (Array.getElem?_eq_getElem hf)⟩

theorem Revises.shape?_eq {pages : PageNo → Option Page} (h : c.Revises f x pages c')
    (hx : c.shape? f = some x) : c'.shape? = c.shape? := by
  funext g
  rw [h.shape?]
  split
  · next hg => rw [← hg, hx]
  · rfl

theorem Revises.page?_eq (h : c.Revises f x (c.page? f) c') : c'.page? = c.page? := by
  funext g n
  rw [h.page?]
  split
  · next hg => rw [hg]
  · rfl

theorem shape?_read (ha : c.Apart) (hf : f < c.files.size) (n : PageNo) (p : Page) :
    (c.read none f n (.page p)).1.shape? = c.shape? := by
  obtain ⟨x, hx⟩ := exists_shape hf
  exact (read_whole ha hx).1.shape?_eq hx

theorem shape?_write (ha : c.Apart) (hf : f < c.files.size) (n : PageNo) (p : Page) :
    (c.write none f n (.page p)).1.shape? = c.shape? := by
  obtain ⟨x, hx⟩ := exists_shape hf
  exact (write_whole ha hx).1.shape?_eq hx

end Catalog

theorem Explained.eq_of_silent {f : FileNo} {p : PageNo} {ks : List Mark} {a b : Option Page}
    (h : Explained f p ks a b) (silent : ∀ k ∈ ks, k.IsSilent) : b = a := by
  induction ks generalizing a with
  | nil => exact h
  | cons k ks ih =>
    obtain ⟨d, hd, rest⟩ := h
    have same : d = a := by
      have hk := silent k List.mem_cons_self
      cases k with
      | edited | allocating => exact hk.elim
      | _ => exact hd
    exact (ih rest fun x hx => silent x (List.mem_cons_of_mem _ hx)).trans same

/-- The next step of the task neither changes the content of a page nor asks for a new one. -/
def Task.isSilent : Task → Bool
  | .allocate .. => false
  | .access _ _ (.write _) .inside => false
  | _ => true

theorem Task.isSilent_of_isFlush {task : Task} (flush : task.isFlush = true) :
    task.isSilent = true := by
  cases task with
  | flushAll | syncAll => rfl
  | _ => cases flush

namespace System

variable {s : System} {ks : List Mark} {m : Move} {t : TaskId} {task : Task} {stay : Stay}

theorem Sound.move (h : s.Sound ks) (possible : s.Permits m) (fair : m.IsFair) :
    (s.after m).Sound (ks ++ s.marks m) := by
  have acts := acts_after h.regular.orderly h.regular.consistent.size_pos possible
  exact acts.preserve (P := Sound) (fun hs hk a => a.sound hk hs) (fun _ hk => fair.mark hk) h

theorem Sound.hasFile_of_transferOf (h : s.Sound ks) {x : Transfer}
    (hx : s.transferOf t = some x) : s.hasFile x.stay.file := by
  obtain ⟨kind, stay⟩ := x
  obtain ⟨o, hat, -, hf, -⟩ := h.regular.escorted.occupantAt hx
  have opened := h.faithful.seated.opened (Ledger.occupantAt_frame.1 hat).2
  rwa [hf] at opened

theorem Sound.shape?_resume (h : s.Sound ks) (ready : s.Permits (.resume t none))
    (ht : s.tasks.find? t = some task) (hn : ∀ file k, task ≠ .allocate file k) :
    (s.after (.resume t none)).files.shape? = s.files.shape? := by
  have deed := does_after h.regular.consistent.size_pos ready
  have undisposed := h.faithful.undisposed ht
  have apart := h.faithful.apart
  rw [Does] at deed
  generalize (s.after (.resume t none)).pool.ledger = l,
    (s.after (.resume t none)).pool.buffers = buffers,
    (s.after (.resume t none)).files = files at deed ⊢
  generalize hm : Move.resume t none = m at deed
  cases deed with
  | load hx hr =>
    cases hm
    have same := Catalog.shape?_read apart (h.hasFile_of_transferOf hx)
    exact (congrArg (fun r => r.1.shape?) hr).symm.trans (same _ _)
  | save hx hr =>
    cases hm
    have same := Catalog.shape?_write apart (h.hasFile_of_transferOf hx)
    exact (congrArg (fun r => r.1.shape?) hr).symm.trans (same _ _)
  | strike => cases hm
  | allocate ht' =>
    cases hm
    exact (hn _ _ (Option.some.inj (ht.symm.trans ht'))).elim
  | delete ht' =>
    cases hm
    obtain rfl := Option.some.inj (ht.symm.trans ht')
    cases undisposed
  | _ => rfl

/-! ### Pages in place -/

/-- The page of a stay is in its frame and has been loaded. -/
def InPlace (s : System) (stay : Stay) : Prop :=
  ∃ o, (s.pool.ledger.frame stay.frame).occupantAt stay.generation = some o ∧ o.io ≠ .busy .load

theorem Sound.inPlace_after (h : s.Sound ks) (possible : s.Permits m) {k : HandleNo} {x : Handle}
    (hk : s.handles.find? k = some x) (hx : s.InPlace x.stay) : (s.after m).InPlace x.stay := by
  obtain ⟨o, hat, hio⟩ := hx
  have pinned := pins_ne_zero h.faithful.accounted hk hat
  obtain ⟨hg, ho⟩ := Ledger.occupantAt_frame.1 hat
  have stays : s.pool.ledger.Keeps (s.after m).pool.ledger x.stay.frame o := by
    rcases fares h.regular possible ho with keeps | ⟨loading, -⟩ | ⟨available, -⟩
    · exact keeps
    · exact (hio loading).elim
    · exact (pinned (Occupant.standing_eq_available.1 available).1).elim
  obtain ⟨o', ho', -, -, hg'⟩ := stays
  refine ⟨o', Ledger.occupantAt_frame.2 ⟨hg'.trans hg, ho'⟩, ?_⟩
  have deed : s.Deed m _ _ _ := does_after h.regular.consistent.size_pos possible
  cases deed.origin h.regular ho' with
  | stayed ho₁ _ _ _ same =>
    obtain rfl := Option.some.inj (ho.symm.trans ho₁)
    exact fun hl => hio (same.1 hl)
  | loaded _ hx _ hi =>
    obtain ⟨o₁, -, -, ho₁, hio₁⟩ := h.regular.seat hx
    rw [hi, ho] at ho₁
    obtain rfl := Option.some.inj ho₁
    exact (hio hio₁).elim
  | arrived _ _ _ next =>
    rw [hg'] at next
    exact (Nat.succ_ne_self _ next.symm).elim

/-! ### Pools that mirror files -/

/-- The files behind the pool hand out the same numbers as those of `c`, and everybody who goes
through the pool sees the pages of `c`. -/
structure Mirrors (ks : List Mark) (s : System) (c : Catalog) : Prop where
  sound : s.Sound ks
  undetached (stay : Stay) : .detached stay ∉ ks
  apart : c.Apart
  registry : s.files.registry = c.registry
  shape? : s.files.shape? = c.shape?
  content {f : FileNo} (hf : s.hasFile f) (p : PageNo) : s.content f p = c.page? f p

theorem Mirrors.new {n : Nat} (hn : 0 < n) {c : Catalog} (hd : c.Distinct) (ha : c.Apart) :
    (System.new n c).Mirrors [] c where
  sound := ⟨.new hn c, .new n hd ha, .new n c⟩
  undetached _ hx := by cases hx
  apart := ha
  registry := rfl
  shape? := rfl
  content _ _ := rfl

theorem silent_of_resume (ht : s.tasks.find? t = some task) (silent : task.isSilent = true)
    {fault : Option Fault} : ∀ k ∈ s.marks (.resume t fault), k.IsSilent := by
  intro k hk
  have tells := tells_of_mem hk
  cases k with
  | edited stay e =>
    obtain ⟨u, j, ⟨hm, -⟩ | ⟨_, hm, ht'⟩⟩ := tells
    · cases hm
    · cases hm
      obtain rfl := Option.some.inj (ht.symm.trans ht')
      cases silent
  | allocating =>
    obtain ⟨u, _, j, hm, ht', -⟩ := tells
    cases hm
    obtain rfl := Option.some.inj (ht.symm.trans ht')
    cases silent
  | _ => exact trivial

namespace Mirrors

variable {c c' : Catalog} (h : s.Mirrors ks c)
include h

theorem hasFile_iff (f : FileNo) : s.hasFile f ↔ f < c.files.size := by
  rw [System.hasFile, Catalog.size_of_registry h.registry]

theorem labels_eq : s.labels = c.labels := Catalog.labels_of_registry h.registry

theorem follow (possible : s.Permits m) (fair : m.IsFair) (attached : ∀ k, m ≠ .detach k)
    (apart : c'.Apart) (registry : c'.registry = c.registry)
    (shape : (s.after m).files.shape? = c'.shape?)
    (content : ∀ {f}, s.hasFile f → ∀ p, (s.after m).content f p = c'.page? f p) :
    (s.after m).Mirrors (ks ++ s.marks m) c' := by
  have acts := acts_after h.sound.regular.orderly h.sound.regular.consistent.size_pos possible
  refine ⟨h.sound.move possible fair, fun stay hk => ?_, apart,
    acts.registry.trans (h.registry.trans registry.symm), shape, fun hf p => content ?_ p⟩
  · rcases List.mem_append.1 hk with hk | hk
    · exact h.undetached stay hk
    · obtain ⟨k, hm⟩ := tells_of_mem hk
      exact attached k hm
  · rwa [System.hasFile, Catalog.size_of_registry acts.registry] at hf

theorem quiet (possible : s.Permits m) (fair : m.IsFair) (attached : ∀ k, m ≠ .detach k)
    (silent : ∀ k ∈ s.marks m, k.IsSilent) (shape : (s.after m).files.shape? = s.files.shape?) :
    (s.after m).Mirrors (ks ++ s.marks m) c := by
  refine h.follow possible fair attached h.apart rfl (shape.trans h.shape?) fun {f} hf p => ?_
  have hs := h.sound
  have acts := acts_after hs.regular.orderly hs.regular.consistent.size_pos possible
  have explained := acts.content (f := f) (p := p) hs.regular (fun _ hk => fair.mark hk) hs.faithful hf
  rw [explained.eq_of_silent silent, h.content hf p]

/-- A step that neither changes content nor asks for a page leaves the pool mirroring the files. -/
theorem resume (ready : s.Permits (.resume t none)) (ht : s.tasks.find? t = some task)
    (silent : task.isSilent = true) :
    (s.after (.resume t none)).Mirrors (ks ++ s.marks (.resume t none)) c := by
  refine h.quiet ready rfl (by rintro k ⟨⟩) (silent_of_resume ht silent)
    (h.sound.shape?_resume ready ht ?_)
  rintro file k rfl
  cases silent

theorem begin {op : Operation} (possible : s.Permits (.begin t op))
    (hop : ∀ file page, op ≠ .dispose file page) : (s.begin t op).Mirrors ks c := by
  have marks : s.marks (.begin t op) = [] := by
    cases op with
    | dispose file page => exact (hop file page rfl).elim
    | _ => rfl
  have fair : (Move.begin t op).IsFair := by
    cases op with
    | dispose file page => exact (hop file page rfl).elim
    | _ => trivial
  have files : (s.begin t op).files = s.files := by cases op <;> rfl
  have begun := h.quiet possible fair (by rintro k ⟨⟩) (by rw [marks]; rintro k ⟨⟩)
    (congrArg _ files)
  rwa [marks, List.append_nil] at begun

theorem alike (apart : c'.Apart) (registry : c'.registry = c.registry)
    (shape : c'.shape? = c.shape?) (pages : c'.page? = c.page?) : s.Mirrors ks c' where
  sound := h.sound
  undetached := h.undetached
  apart := apart
  registry := h.registry.trans registry.symm
  shape? := h.shape?.trans shape.symm
  content hf p := by rw [h.content hf, pages]

theorem finishWriteBack_ok (hx : s.transferOf t = some ⟨.writeBack, stay⟩) :
    (s.finishTransfer t ⟨.writeBack, stay⟩ none).2.2 = .ok () := by
  obtain ⟨x, shape⟩ := Catalog.exists_shape (h.sound.hasFile_of_transferOf hx)
  have result := (Catalog.write_whole (n := stay.page) (p := s.pool.buffer stay.frame)
    h.sound.faithful.apart shape).2
  have there := h.sound.rooted _ _ _ (h.sound.regular.shown_of_writeBack hx)
  obtain ⟨q, hq⟩ := Option.ne_none_iff_exists'.1 there
  rw [hq] at result
  simp only [finishTransfer, finishWriteBack]
  generalize s.files.write none stay.file stay.page _ = r at result
  obtain ⟨files, r⟩ := r
  obtain rfl : r = .ok () := result
  rfl

end Mirrors

end System

end SecondChance
