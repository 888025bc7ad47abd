import SecondChance.Proofs.Store.Dialogues
import SecondChance.Proofs.Store.Shapes

/-!
Page files in memory and on disk, which nobody can tell apart.

One kind of store keeps a content or nothing in every slot; the other one keeps bytes, and remembers
beside them which slots are live. The second kind `Depicts` the first if its bytes are the contents
of the slots, one behind the other, with zeros for an empty slot. Every call keeps to that picture
and is answered in the same way on both sides. In particular a slot that is handed out again need
not be written, because the page that was deleted there has left zeros.
-/

namespace SecondChance

/-- The bytes and the list of live pages are a picture of the slots of a store in memory. -/
structure DiskStore.Depicts (d : DiskStore) (bytes : Bytes) (m : MemoryStore) : Prop where
  unlimited : m.limit = none
  live : d.live = m.slots.map Option.isSome
  size : bytes.size = m.slots.size * pageSize
  slot {n : PageNo} {content : Option Page} (hn : m.slots[n]? = some content) :
    Page.slice? bytes (n * pageSize) = some (content.getD .zero)

/-- The store in memory that holds the pages of a string of bytes, all of them live. -/
def MemoryStore.holding (bytes : Bytes) : MemoryStore :=
  { MemoryStore.new none with
    slots := (Array.range (bytes.size / pageSize)).map fun n => Page.slice? bytes (n * pageSize) }

theorem MemoryStore.holding_nothing : holding #[] = .new none := by
  simp [holding, MemoryStore.new]

theorem MemoryStore.page?_holding (bytes : Bytes) (n : PageNo) :
    (holding bytes).page? n = Page.slice? bytes (n * pageSize) := by
  rw [page?, holding, Array.getElem?_map]
  by_cases hn : n < bytes.size / pageSize
  · rw [Array.getElem?_range, if_pos hn]
    rfl
  · have short : ¬ n * pageSize + pageSize ≤ bytes.size := by
      rw [← Nat.succ_mul]
      exact fun fits => hn ((Nat.le_div_iff_mul_le Page.pageSize_pos).2 fits)
    rw [Array.getElem?_range, if_neg hn, Page.slice?, dif_neg short]
    rfl

namespace DiskStore.Depicts

variable {d : DiskStore} {bytes : Bytes} {m : MemoryStore} {n : PageNo}
  (h : d.Depicts bytes m)
include h

theorem pageCount_eq : d.pageCount = m.pageCount := by
  rw [pageCount, h.live, Array.size_map, MemoryStore.pageCount]

theorem isLive_eq (n : PageNo) : d.isLive n = (m.page? n).isSome := by
  rw [isLive, h.live, Array.getElem?_map, MemoryStore.page?]
  cases m.slots[n]? <;> rfl

theorem slice? {p : Page} (hp : m.page? n = some p) :
    Page.slice? bytes (n * pageSize) = some p :=
  h.slot (Option.join_eq_some_iff.1 hp)

theorem firstFree?_eq : d.firstFree? = m.firstFree? := by
  have free : (fun b : Bool => b == false) ∘ Option.isSome =
      (Option.isNone : Option Page → Bool) := by
    funext o
    cases o <;> rfl
  rw [firstFree?, h.live, Array.toList_map, List.findIdx?_map, free, MemoryStore.firstFree?]

theorem counted (st : Stats) : d.Depicts bytes { m with stats := st } :=
  ⟨h.unlimited, h.live, h.size, h.slot⟩

theorem slot_le (hn : n < m.slots.size) : n * pageSize + pageSize ≤ bytes.size := by
  rw [h.size, ← Nat.succ_mul]
  exact Nat.mul_le_mul_right pageSize hn

theorem set (hn : n < m.slots.size) (content : Option Page) (st : Stats) :
    ({ d with live := d.live.setIfInBounds n content.isSome } : DiskStore).Depicts
      (store bytes n (content.getD .zero))
      { m with slots := m.slots.setIfInBounds n content, stats := st } where
  unlimited := h.unlimited
  live := by simp [h.live]
  size := by rw [size_store, Nat.max_eq_left (h.slot_le hn), h.size, Array.size_setIfInBounds]
  slot {k content'} hk := by
    rw [Array.getElem?_setIfInBounds] at hk
    by_cases same : n = k
    · subst same
      rw [if_pos rfl, if_pos hn] at hk
      rw [← Option.some.inj hk, Page.slice?_store_self]
    · rw [if_neg same] at hk
      obtain ⟨hlt, -⟩ := Array.getElem?_eq_some_iff.1 hk
      rw [Page.slice?_store_of_ne same _ (h.slot_le hlt), h.slot hk]

theorem push (st : Stats) : ({ d with live := d.live.push true } : DiskStore).Depicts
    (store bytes d.pageCount .zero) { m with slots := m.slots.push (some .zero), stats := st } where
  unlimited := h.unlimited
  live := by simp [h.live]
  size := by
    rw [size_store, h.size, h.pageCount_eq, MemoryStore.pageCount, ← Nat.succ_mul, Array.size_push]
    exact Nat.max_eq_right (Nat.mul_le_mul_right pageSize (Nat.le_succ _))
  slot {k content} hk := by
    rw [Array.getElem?_push, ← MemoryStore.pageCount, ← h.pageCount_eq] at hk
    by_cases last : k = d.pageCount
    · subst last
      rw [if_pos rfl] at hk
      rw [← Option.some.inj hk, Page.slice?_store_self]
      rfl
    · rw [if_neg last] at hk
      obtain ⟨hlt, -⟩ := Array.getElem?_eq_some_iff.1 hk
      rw [Page.slice?_store_of_ne (Ne.symm last) _ (h.slot_le hlt), h.slot hk]

theorem reuse (hn : m.slots[n]? = some none) (st : Stats) :
    ({ d with live := d.live.setIfInBounds n true } : DiskStore).Depicts bytes
      { m with slots := m.slots.setIfInBounds n (some .zero), stats := st } where
  unlimited := h.unlimited
  live := by simp [h.live]
  size := by simpa using h.size
  slot {k content} hk := by
    rw [Array.getElem?_setIfInBounds] at hk
    by_cases same : n = k
    · subst same
      obtain ⟨hlt, -⟩ := Array.getElem?_eq_some_iff.1 hn
      rw [if_pos rfl, if_pos hlt] at hk
      have zeros := h.slot hn
      rw [← Option.some.inj hk]
      exact zeros
    · rw [if_neg same] at hk
      exact h.slot hk

theorem live_set {p : Page} (hp : m.page? n = some p) : d.live.setIfInBounds n true = d.live := by
  rw [← Array.toList_inj, Array.toList_setIfInBounds]
  refine set_live_self fun x hx => ?_
  have live := h.isLive_eq n
  rwa [hp, isLive, ← Array.getElem?_toList, hx] at live

/-! ### Calls -/

theorem call_write (name : String) (n : PageNo) (buffer : Buffer) :
    d.Depicts (d.write name bytes n buffer).1 (m.write name n buffer).1 ∧
      (d.write name bytes n buffer).2 = (m.write name n buffer).2 := by
  rw [DiskStore.write, MemoryStore.write, checkLive, h.isLive_eq]
  cases buffer.check with
  | error e => exact ⟨h, rfl⟩
  | ok p =>
    cases hp : m.page? n with
    | none => exact ⟨h, rfl⟩
    | some q =>
      have written := h.set (MemoryStore.lt_size_of_page? hp) (some p)
        { m.stats with writes := m.stats.writes + 1 }
      rw [Option.isSome_some, h.live_set hp] at written
      exact ⟨written, rfl⟩

theorem call_allocate :
    (d.allocate bytes).1.Depicts (d.allocate bytes).2.1 m.allocate.1 ∧
      .ok (d.allocate bytes).2.2 = m.allocate.2 := by
  rw [DiskStore.allocate, MemoryStore.allocate, h.firstFree?_eq]
  cases hn : m.firstFree? with
  | some n =>
    obtain ⟨hlt, free, -⟩ := List.findIdx?_eq_some_iff_getElem.1 hn
    rw [Array.getElem_toList, Option.isNone_iff_eq_none] at free
    rw [Array.length_toList] at hlt
    have empty : m.slots[n]? = some none := by rw [Array.getElem?_eq_getElem hlt, free]
    exact ⟨h.reuse empty { m.stats with allocations := m.stats.allocations + 1 }, rfl⟩
  | none =>
    have room : ¬ m.limit.any (· ≤ m.pageCount) = true := by
      rw [h.unlimited]
      exact Bool.false_ne_true
    dsimp only
    rw [if_neg room]
    exact ⟨h.push { m.stats with allocations := m.stats.allocations + 1 },
      congrArg Except.ok h.pageCount_eq⟩

theorem call_delete (name : String) (n : PageNo) :
    (d.delete name bytes n).1.Depicts (d.delete name bytes n).2.1 (m.delete name n).1 ∧
      (d.delete name bytes n).2.2 = (m.delete name n).2 := by
  rw [DiskStore.delete, MemoryStore.delete, checkLive, h.isLive_eq]
  cases hp : m.page? n with
  | none => exact ⟨h, rfl⟩
  | some q =>
    have emptied := h.set (MemoryStore.lt_size_of_page? hp) none
      { m.stats with deletions := m.stats.deletions + 1 }
    rw [Option.isSome_none, Option.getD_none] at emptied
    simp only [Option.isSome_some, if_true]
    exact ⟨emptied, trivial⟩

/-- Every call to the store on disk has the answer that the store in memory gives, and leaves the
bytes a picture of the store in memory after the call. -/
theorem call (name : String) (x : StoreCall) :
    (d.call name bytes x).1.Depicts (d.call name bytes x).2.1 (m.call name x).1 ∧
      (d.call name bytes x).2.2 = (m.call name x).2 := by
  cases x with
  | read n buffer =>
    rw [DiskStore.call, MemoryStore.call, DiskStore.read, MemoryStore.read, checkLive, h.isLive_eq]
    cases buffer.check with
    | error e => exact ⟨h, rfl⟩
    | ok p =>
      cases hp : m.page? n with
      | none => exact ⟨h, rfl⟩
      | some q => exact ⟨h.counted _, by simp [h.slice? hp]⟩
  | write n buffer =>
    obtain ⟨depicts, result⟩ := h.call_write name n buffer
    exact ⟨depicts, congrArg (StoreAnswer.ofResult _) result⟩
  | allocate =>
    obtain ⟨depicts, result⟩ := h.call_allocate
    exact ⟨depicts, congrArg (StoreAnswer.ofResult .number) result⟩
  | delete n =>
    obtain ⟨depicts, result⟩ := h.call_delete name n
    exact ⟨depicts, congrArg (StoreAnswer.ofResult _) result⟩
  | count => exact ⟨h, congrArg StoreAnswer.number h.pageCount_eq⟩
  | sync => exact ⟨h, rfl⟩

end DiskStore.Depicts

def Bytes.page (bytes : Bytes) (n : PageNo) : Page :=
  (Page.slice? bytes (n * pageSize)).getD .zero

theorem Page.slice?_of_whole {bytes : Bytes} {n count : Nat}
    (whole : bytes.size = count * pageSize) (hn : n < count) :
    slice? bytes (n * pageSize) = some (bytes.page n) := by
  have full : n * pageSize + pageSize ≤ bytes.size := by
    rw [whole, ← Nat.succ_mul]
    exact Nat.mul_le_mul_right pageSize hn
  obtain ⟨p, hp⟩ := Option.isSome_iff_exists.1 (isSome_slice?.2 full)
  rw [Bytes.page, hp, Option.getD_some]

theorem MemoryStore.slots_holding {bytes : Bytes} {count : Nat}
    (whole : bytes.size = count * pageSize) :
    (holding bytes).slots = (Array.range count).map fun n => some (bytes.page n) := by
  rw [holding, whole, Nat.mul_div_cancel _ Page.pageSize_pos]
  refine Array.map_congr_left fun n hn => ?_
  exact Page.slice?_of_whole whole (Array.mem_range.1 hn)

theorem DiskStore.depicts_ofBytes (path place : String) {bytes : Bytes}
    (whole : bytes.size % pageSize = 0) :
    ∃ d, ofBytes path place bytes = .ok d ∧ d.place = place ∧
      d.Depicts bytes (.holding bytes) := by
  have whole' : bytes.size = bytes.size / pageSize * pageSize :=
    (Nat.div_mul_cancel (Nat.dvd_of_mod_eq_zero whole)).symm
  have slots := MemoryStore.slots_holding whole'
  refine ⟨_, if_pos whole, rfl, rfl, ?_, ?_, fun {n content} hn => ?_⟩
  · exact Array.ext (by simp [slots]) fun n _ _ => by simp [slots]
  · simpa [slots] using whole'
  · rw [slots, Array.getElem?_map] at hn
    obtain ⟨k, hk, rfl⟩ := Option.map_eq_some_iff.1 hn
    obtain ⟨hlt, rfl⟩ := Array.getElem?_eq_some_iff.1 hk
    rw [Array.getElem_range, Page.slice?_of_whole whole' (by simpa using hlt), Option.getD_some]

/-! ### Paths -/

/-- A path that leads to a place on one drive leads to the same place on every drive with the same
directories. -/
theorem Drive.walk_congr {d d' : Drive} (same : d'.directories = d.directories) {slash : Bool}
    {here place : String} {names : List String} (h : d.walk slash here names = .ok place) :
    d'.walk slash here names = .ok place := by
  induction names generalizing here with
  | nil => exact h
  | cons name next ih =>
    cases next with
    | nil =>
      rw [walk] at h ⊢
      rwa [same]
    | cons name' next =>
      -- The files that are there only matter where the path leads nowhere.
      simp only [walk, same] at h ⊢
      split at h
      · next stay => rw [if_pos stay, ih h]
      · next move =>
        rw [if_neg move]
        split at h
        · next up => rw [if_pos up, ih h]
        · next down =>
          rw [if_neg down]
          split at h
          · cases h
          · next short =>
            rw [if_neg short]
            split at h
            · next there => rw [if_pos there, ih h]
            · split at h <;> cases h

theorem Drive.resolve_congr {d d' : Drive} (same : d'.directories = d.directories)
    {path place : String} (h : d.resolve path = .ok place) : d'.resolve path = .ok place := by
  unfold resolve at h ⊢
  dsimp only at h ⊢
  split at h
  · cases h
  · next zero =>
    rw [if_neg zero]
    split at h
    · cases h
    · next empty =>
      rw [if_neg empty]
      split at h
      · cases h
      · next long =>
        rw [if_neg long]
        exact walk_congr same h

namespace Catalog

/-! ### Open files -/

variable {c c' : Catalog} {f g : FileNo} {path place : String} {m : MemoryStore}

/-- An open file in memory has the store `m`. -/
def InMemory (c : Catalog) (f : FileNo) (path : String) (m : MemoryStore) : Prop :=
  ∃ i, c.files[f]? = some ⟨i, path, .memory m⟩

/-- An open file depicts the store `m` on disk, in the place that its path leads to. -/
structure OnDisk (c : Catalog) (f : FileNo) (path place : String) (m : MemoryStore) : Prop where
  resolved : c.drive.resolve path = .ok place
  store : ∃ i d bytes, c.files[f]? = some ⟨i, path, .disk d⟩ ∧ d.place = place ∧
    c.drive.contents? place = some bytes ∧ d.Depicts bytes m

theorem OnDisk.pageCount_eq (h : c.OnDisk f path place m) : c.pageCount f = m.pageCount := by
  obtain ⟨i, d, bytes, hf, -, -, depicts⟩ := h.store
  rw [pageCount, hf]
  exact depicts.pageCount_eq

theorem OnDisk.isLive_eq (h : c.OnDisk f path place m) (n : PageNo) :
    c.isLive f n = (m.page? n).isSome := by
  obtain ⟨i, d, bytes, hf, -, -, depicts⟩ := h.store
  rw [Catalog.isLive_eq hf]
  exact depicts.isLive_eq n

theorem OnDisk.counted (h : c.OnDisk f path place m) (st : Stats) :
    c.OnDisk f path place { m with stats := st } := by
  obtain ⟨i, d, bytes, hf, hp, hb, depicts⟩ := h.store
  exact ⟨h.resolved, i, d, bytes, hf, hp, hb, depicts.counted st⟩

theorem InMemory.call (h : c.InMemory f path m) (x : StoreCall) :
    (c.call f x).1.InMemory f path (m.call path x).1 ∧ (c.call f x).2 = (m.call path x).2 := by
  obtain ⟨i, hf⟩ := h
  rw [call_memory hf]
  refine ⟨⟨i, ?_⟩, rfl⟩
  rw [files_setStore, if_pos rfl, hf]
  rfl

theorem OnDisk.call (h : c.OnDisk f path place m) (x : StoreCall) :
    (c.call f x).1.OnDisk f path place (m.call path x).1 ∧ (c.call f x).2 = (m.call path x).2 := by
  obtain ⟨i, d, bytes, hf, rfl, hb, depicts⟩ := h.store
  obtain ⟨depicts', answer⟩ := depicts.call path x
  have stays := d.place_call path bytes x
  rw [call_disk hf hb]
  refine ⟨⟨?_, i, _, _, ?_, stays, ?_, depicts'⟩, answer⟩
  · refine Drive.resolve_congr ?_ h.resolved
    rfl
  · show (Catalog.setStore _ f _).files[f]? = _
    rw [files_setStore, if_pos rfl]
    show c.files[f]?.map _ = _
    rw [hf]
    rfl
  · show (c.drive.put _ _).contents? _ = _
    rw [Drive.contents?, Drive.put, stays, Table.find?_insert_self]

theorem InMemory.calls (h : c.InMemory f path m) (xs : List StoreCall) :
    (c.calls f xs).1.InMemory f path (m.calls path xs).1 ∧
      (c.calls f xs).2 = (m.calls path xs).2 :=
  dialogue_related (R := fun (c : Catalog) m => c.InMemory f path m) (fun x h => h.call x) h xs

theorem OnDisk.calls (h : c.OnDisk f path place m) (xs : List StoreCall) :
    (c.calls f xs).1.OnDisk f path place (m.calls path xs).1 ∧
      (c.calls f xs).2 = (m.calls path xs).2 :=
  dialogue_related (R := fun (c : Catalog) m => c.OnDisk f path place m) (fun x h => h.call x) h xs

theorem exists_openDisk (resolved : c.drive.resolve path = .ok place)
    (whole : (c.drive.contents place).size % pageSize = 0) :
    ∃ e g, c.openDisk path = (e, .ok g) ∧
      e.OnDisk g path place (.holding (c.drive.contents place)) ∧
      ∀ (f : FileNo) (x : OpenFile), c.files[f]? = some x → e.files[f]? = some x := by
  obtain ⟨drive, opened, found, same⟩ : ∃ drive, c.drive.openOrCreate path = (drive, .ok place) ∧
      drive.contents? place = some (c.drive.contents place) ∧
      drive.directories = c.drive.directories := by
    rw [Drive.openOrCreate, resolved, Drive.contents]
    dsimp only
    cases hb : c.drive.contents? place with
    | some bytes => exact ⟨_, rfl, hb, rfl⟩
    | none => exact ⟨_, rfl, Table.find?_insert_self .., rfl⟩
  have contents : drive.contents place = c.drive.contents place := by
    rw [Drive.contents, found, Option.getD_some]
  obtain ⟨d, hd, stays, depicts⟩ := DiskStore.depicts_ofBytes path place whole
  simp only [openDisk, opened, contents, hd, add]
  have led := Drive.resolve_congr same resolved
  refine ⟨_, _, rfl, ⟨led, ⟨c.nextId⟩, d, _, ?_, stays, found, depicts⟩, fun f x hf => ?_⟩
  · exact Array.getElem?_push_size
  · obtain ⟨hlt, -⟩ := Array.getElem?_eq_some_iff.1 hf
    rw [Array.getElem?_push, if_neg (Nat.ne_of_lt hlt), hf]

theorem InMemory.refused (h : c.InMemory f path m) {x : StoreCall} {e : StoreError}
    (hr : (c.call f x).2 = .refused e) : (c.call f x).1 = c := by
  obtain ⟨i, hf⟩ := h
  exact call_memory_refused hf hr

theorem OnDisk.refused (h : c.OnDisk f path place m) {x : StoreCall} {e : StoreError}
    (hr : (c.call f x).2 = .refused e) : (c.call f x).1 = c := by
  obtain ⟨i, d, bytes, hf, rfl, hb, -⟩ := h.store
  exact call_disk_refused hf hb hr

/-- Nobody can tell two open files apart: whatever they are called for, they give the same answers.
Neither of them changes anything when it refuses a call. -/
structure Twins (c : Catalog) (f g : FileNo) : Prop where
  alike (xs : List StoreCall) : (c.calls f xs).2 = (c.calls g xs).2
  refused {k : FileNo} (hk : k = f ∨ k = g) (xs : List StoreCall) {x : StoreCall} {e : StoreError}
    (hr : ((c.calls k xs).1.call k x).2 = .refused e) :
    ((c.calls k xs).1.call k x).1 = (c.calls k xs).1

/-- A file in memory and a file on disk that depicts it are twins. -/
theorem InMemory.twins (h : c.InMemory f path m) (h' : c.OnDisk g path place m) : c.Twins f g where
  alike xs := (h.calls xs).2.trans (h'.calls xs).2.symm
  refused {k} hk xs x e hr := by
    rcases hk with rfl | rfl
    · exact (h.calls xs).1.refused hr
    · exact (h'.calls xs).1.refused hr

/-- A file on disk cannot be told apart from a file in memory that has the same name and as much
room as it takes: neither if both are new, nor if the pages that are found on disk are in memory
too. -/
theorem disk_like_memory (resolved : c.drive.resolve path = .ok place) :
    (c.drive.contents? place = none →
      ∃ e g, (c.openMemory path none).1.openDisk path = (e, .ok g) ∧
        e.Twins (c.openMemory path none).2 g) ∧
    ∀ {bytes : Bytes} {f : FileNo} {i : FileId} {m : MemoryStore},
      c.drive.contents? place = some bytes → bytes.size % pageSize = 0 →
      c.files[f]? = some ⟨i, path, .memory m⟩ → m.limit = none →
      m.slots = (MemoryStore.holding bytes).slots →
      ∃ e g, c.openDisk path = (e, .ok g) ∧ e.Twins f g := by
  refine ⟨fun missing => ?_, fun {bytes f i m} found whole hf unlimited slots => ?_⟩
  · have nothing : (c.openMemory path none).1.drive.contents place = #[] := by
      show c.drive.contents place = #[]
      rw [Drive.contents, missing, Option.getD_none]
    obtain ⟨e, g, opened, onDisk, kept⟩ :=
      exists_openDisk (c := (c.openMemory path none).1) resolved (by rw [nothing]; rfl)
    have inMemory : e.InMemory (c.openMemory path none).2 path (.new none) :=
      ⟨⟨c.nextId⟩, kept _ _ Array.getElem?_push_size⟩
    rw [nothing, MemoryStore.holding_nothing] at onDisk
    exact ⟨e, g, opened, inMemory.twins onDisk⟩
  · have contents : c.drive.contents place = bytes := by
      rw [Drive.contents, found, Option.getD_some]
    obtain ⟨e, g, opened, onDisk, kept⟩ := exists_openDisk resolved (contents ▸ whole)
    obtain ⟨slots', limit, stats⟩ := m
    obtain rfl : limit = none := unlimited
    obtain rfl : slots' = _ := slots
    have inMemory : e.InMemory f path _ := ⟨i, kept f _ hf⟩
    rw [contents] at onDisk
    exact ⟨e, g, opened, inMemory.twins (onDisk.counted stats)⟩

/-- Two files that are new, and two files with one page of sevens. -/
theorem disk_like_memory_small :
    (∃ e g, (Catalog.empty.openMemory "pages" none).1.openDisk "pages" = (e, .ok g) ∧ e.Twins 0 g) ∧
      let bytes := (Page.filled 7).toArray
      let c : Catalog :=
        ⟨#[⟨⟨1⟩, "pages", .memory (.holding bytes)⟩], Drive.empty.put "pages" bytes, 2⟩
      ∃ e g, c.openDisk "pages" = (e, .ok g) ∧ e.Twins 0 g := by
  have resolved : Catalog.empty.drive.resolve "pages" = .ok "pages" := rfl
  refine ⟨(disk_like_memory resolved).1 rfl, ?_⟩
  intro bytes c
  have resolved : c.drive.resolve "pages" = .ok "pages" := rfl
  have found : c.drive.contents? "pages" = some bytes := Table.find?_insert_self ..
  have whole : bytes.size % pageSize = 0 := by simp [bytes]
  have opened : c.files[0]? = some ⟨⟨1⟩, "pages", .memory (.holding bytes)⟩ := rfl
  exact (disk_like_memory resolved).2 found whole opened rfl rfl

end Catalog

end SecondChance
