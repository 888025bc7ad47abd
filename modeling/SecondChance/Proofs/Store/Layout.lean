import SecondChance.Limits
import SecondChance.Proofs.Store.Twins

/-!
How a page file lies on the drive, and what is found when it is opened again.

The pages of a file lie one behind the other and there is nothing else in it. Of each page the file
has what it was told last: a page that was written has what was written, a page that was handed out
since has zeros, and so has the slot of a page that was deleted. Which slots those are is forgotten
when the file is opened again, so there is a page in each of them then.
-/

namespace SecondChance

/-- What a call and its answer tell about the content of page `n`: nothing, or the content that it
has from then on, if it has any. -/
def StoreCall.tells (n : PageNo) : StoreCall × StoreAnswer → Option (Option Page)
  | (.write k (.page p), .done) => if k = n then some (some p) else none
  | (.allocate, .number k) => if k = n then some (some .zero) else none
  | (.delete k, .done) => if k = n then some none else none
  | _ => none

/-- What was told last about page `n`. -/
def lastTold (n : PageNo) (log : List (StoreCall × StoreAnswer)) : Option (Option Page) :=
  log.reverse.findSome? (StoreCall.tells n)

/-- The slot that a store on disk seeks for a call, unless it refuses or needs no bytes. The length
of a buffer is checked before the page is, and the page before its offset is computed. -/
def DiskStore.seeks (d : DiskStore) : StoreCall → Option PageNo
  | .read n buffer | .write n buffer =>
    match buffer.check with
    | .error _ => none
    | .ok _ => if d.isLive n then some n else none
  | .allocate => if d.firstFree?.isSome then none else some d.pageCount
  | .delete n => if d.isLive n then some n else none
  | .count | .sync => none

/-- What a call has to do with the bytes of a file, the slot that it seeks, the bytes afterwards and
the answer. No other slot is read or written. -/
inductive DiskStore.Touches (bytes : Bytes) : Option PageNo → Bytes → StoreAnswer → Prop
  | nothing {a : StoreAnswer} (ha : ∀ p, a ≠ .content p) : Touches bytes none bytes a
  | read {n : PageNo} {p : Page} (hp : Page.slice? bytes (n * pageSize) = some p) :
      Touches bytes (some n) bytes (.content p)
  | write {n : PageNo} (p : Page) {a : StoreAnswer} (ha : ∀ p, a ≠ .content p) :
      Touches bytes (some n) (store bytes n p) a

theorem lastTold_cons (n : PageNo) (e : StoreCall × StoreAnswer)
    (log : List (StoreCall × StoreAnswer)) :
    lastTold n (e :: log) = (lastTold n log).or (StoreCall.tells n e) := by
  rw [lastTold, List.reverse_cons, List.findSome?_append, lastTold, List.findSome?_singleton]

namespace MemoryStore

variable {m : MemoryStore} {name : String}

theorem page?_call (m : MemoryStore) (name : String) (x : StoreCall) (n : PageNo) :
    (m.call name x).1.page? n =
      (StoreCall.tells n (x, (m.call name x).2)).getD (m.page? n) := by
  cases x with
  | read k buffer =>
    cases buffer with
    | page p => exact congrFun (m.read_eq name k p).2.2 n
    | misfit => rfl
  | write k buffer =>
    cases buffer with
    | page p =>
      obtain ⟨-, result, pages⟩ := m.write_eq name k p
      simp only [call, Prod.map, id_eq, pages, result]
      by_cases hk : k = n
      · subst hk
        cases m.page? k <;> simp [StoreError.unlessMissing, StoreAnswer.ofResult, StoreCall.tells]
      · cases m.page? k <;>
          simp [StoreError.unlessMissing, StoreAnswer.ofResult, StoreCall.tells, hk]
    | misfit => rfl
  | allocate =>
    obtain ⟨-, result, pages⟩ := m.allocate_eq
    simp only [call, Prod.map, id_eq, pages, result]
    cases m.shape.next? with
    | none => rfl
    | some k => by_cases hk : k = n <;> simp [StoreAnswer.ofResult, StoreCall.tells, hk, shape]
  | delete k =>
    obtain ⟨-, result, pages⟩ := m.delete_eq name k
    simp only [call, Prod.map, id_eq, pages, result]
    by_cases hk : k = n
    · subst hk
      cases m.page? k <;> simp [StoreError.unlessMissing, StoreAnswer.ofResult, StoreCall.tells]
    · cases m.page? k <;> simp [StoreError.unlessMissing, StoreAnswer.ofResult, StoreCall.tells, hk]
  | count | sync => rfl

/-- After many calls a page has what was told last about it, or what it had. -/
theorem page?_calls (m : MemoryStore) (name : String) (xs : List StoreCall) (n : PageNo) :
    (m.calls name xs).1.page? n = (lastTold n (m.calls name xs).2).getD (m.page? n) := by
  induction xs generalizing m with
  | nil => rfl
  | cons x xs ih =>
    show ((m.call name x).1.calls name xs).1.page? n =
      (lastTold n ((x, (m.call name x).2) :: ((m.call name x).1.calls name xs).2)).getD (m.page? n)
    rw [ih, lastTold_cons, page?_call]
    cases lastTold n ((m.call name x).1.calls name xs).2 <;> rfl

end MemoryStore

namespace DiskStore

variable {d : DiskStore} {bytes : Bytes} {m : MemoryStore} {n : PageNo} {x : StoreCall}

theorem seeks_le (hs : d.seeks x = some n) : n ≤ d.pageCount := by
  have live {k : PageNo} (hk : (if d.isLive k = true then some k else none) = some n) :
      n ≤ d.pageCount := by
    split at hk
    · next hl =>
      obtain rfl := Option.some.inj hk
      exact Nat.le_of_lt (lt_size_of_isLive hl)
    · cases hk
  cases x with
  | read k buffer | write k buffer =>
    rw [seeks] at hs
    cases hb : buffer.check with
    | error e =>
      rw [hb] at hs
      cases hs
    | ok p =>
      rw [hb] at hs
      exact live hs
  | allocate =>
    rw [seeks] at hs
    split at hs
    · cases hs
    · exact Nat.le_of_eq (Option.some.inj hs).symm
  | delete k => exact live hs
  | count | sync => cases hs

theorem Depicts.touches (h : d.Depicts bytes m) (name : String) (x : StoreCall) :
    Touches bytes (d.seeks x) (d.call name bytes x).2.1 (d.call name bytes x).2.2 := by
  cases x with
  | read k buffer =>
    rw [seeks, DiskStore.call, read, checkLive, h.isLive_eq]
    cases buffer.check with
    | error e => exact .nothing (by rintro _ ⟨⟩)
    | ok p =>
      cases hp : m.page? k with
      | none => exact .nothing (by rintro _ ⟨⟩)
      | some q =>
        simp only [Option.isSome_some, if_true, h.slice? hp]
        exact .read (h.slice? hp)
  | write k buffer =>
    rw [seeks, DiskStore.call, write, checkLive, h.isLive_eq]
    cases buffer.check with
    | error e => exact .nothing (by rintro _ ⟨⟩)
    | ok p =>
      cases m.page? k with
      | none => exact .nothing (by rintro _ ⟨⟩)
      | some q => exact .write p (by rintro _ ⟨⟩)
  | allocate =>
    rw [seeks, DiskStore.call, allocate]
    cases d.firstFree? with
    | some k => exact .nothing (by rintro _ ⟨⟩)
    | none =>
      simp only [Option.isSome_none, Bool.false_eq_true, if_false]
      exact .write _ (by rintro _ ⟨⟩)
  | delete k =>
    rw [seeks, DiskStore.call, delete, checkLive, h.isLive_eq]
    cases m.page? k with
    | none => exact .nothing (by rintro _ ⟨⟩)
    | some q =>
      simp only [Option.isSome_some, if_true]
      exact .write _ (by rintro _ ⟨⟩)
  | count | sync => exact .nothing (by rintro _ ⟨⟩)

end DiskStore

namespace Catalog

variable {c : Catalog} {f g : FileNo} {path place : String} {m : MemoryStore}

def seeks (c : Catalog) (f : FileNo) (x : StoreCall) : Option PageNo :=
  match c.files[f]? with
  | some ⟨_, _, .disk d⟩ => d.seeks x
  | _ => none

/-- An open file is laid out in its place as it has been told, and so it is found there. -/
structure LaidOut (c : Catalog) (f : FileNo) (path place : String) (said : PageNo → Option Page) :
    Prop where
  size : (c.drive.contents place).size = c.pageCount f * pageSize
  isLive (n : PageNo) : c.isLive f n = (said n).isSome
  slot {n : PageNo} (hn : n < c.pageCount f) :
    Page.slice? (c.drive.contents place) (n * pageSize) = some ((said n).getD .zero)
  /-- Every offset fits a word if the length of the file does. -/
  seek {x : StoreCall} {n : PageNo} (hs : c.seeks f x = some n) :
    (n < c.pageCount f ∨ n * pageSize = (c.drive.contents place).size) ∧
      ((c.drive.contents place).size < wordLimit → PageNo.byteOffset n = .ok (n * pageSize))
  touch (x : StoreCall) : DiskStore.Touches (c.drive.contents place) (c.seeks f x)
    ((c.call f x).1.drive.contents place) (c.call f x).2
  reopened : ∃ e k, c.openDisk path = (e, .ok k) ∧ e.pageCount k = c.pageCount f ∧
    ∀ n < c.pageCount f, e.isLive k n = true ∧ ∀ {b p}, Buffer.check b = .ok p →
      (e.call k (.read n b)).2 = .content ((said n).getD .zero)

theorem OnDisk.laidOut (h : c.OnDisk f path place m) : c.LaidOut f path place m.page? := by
  obtain ⟨i, d, bytes, hf, rfl, hb, depicts⟩ := h.store
  have contents : c.drive.contents d.place = bytes := by rw [Drive.contents, hb, Option.getD_some]
  have count : c.pageCount f = m.slots.size := h.pageCount_eq
  have seeks (x : StoreCall) : c.seeks f x = d.seeks x := by rw [Catalog.seeks, hf]
  have slot {n : PageNo} (hn : n < m.slots.size) :
      Page.slice? bytes (n * pageSize) = some ((m.page? n).getD .zero) := by
    have found := Array.getElem?_eq_getElem hn
    rw [depicts.slot found, MemoryStore.page?, found, Option.join_some]
  constructor
  case size => rw [contents, count, depicts.size]
  case isLive => exact h.isLive_eq
  case slot =>
    intro n hn
    rw [contents, slot (count ▸ hn)]
  case seek =>
    intro x n hs
    rw [seeks] at hs
    have hn := DiskStore.seeks_le hs
    rw [depicts.pageCount_eq, MemoryStore.pageCount] at hn
    rw [contents, count, depicts.size]
    refine ⟨?_, fun fits => if_pos ?_⟩
    · rcases Nat.lt_or_eq_of_le hn with hn | hn
      · exact .inl hn
      · exact .inr (by rw [hn])
    · exact Nat.lt_of_le_of_lt (Nat.mul_le_mul_right pageSize hn) fits
  case touch =>
    intro x
    have after : (c.call f x).1.drive.contents d.place = (d.call path bytes x).2.1 := by
      rw [call_disk hf hb]
      show (c.drive.put _ _).contents _ = _
      rw [Drive.contents_put, if_pos (d.place_call path bytes x)]
    rw [after, contents, seeks, call_disk hf hb]
    exact depicts.touches path x
  case reopened =>
    have whole : (c.drive.contents d.place).size % pageSize = 0 := by
      rw [contents, depicts.size, Nat.mul_mod_left]
    obtain ⟨e, k, opened, onDisk, -⟩ := exists_openDisk h.resolved whole
    rw [contents] at onDisk
    have found {n : PageNo} (hn : n < c.pageCount f) :
        (MemoryStore.holding bytes).page? n = some ((m.page? n).getD .zero) := by
      rw [MemoryStore.page?_holding, slot (count ▸ hn)]
    refine ⟨e, k, opened, ?_, fun n hn => ⟨?_, fun {b p} hp => ?_⟩⟩
    · have full : m.slots.size * pageSize / pageSize = m.slots.size :=
        Nat.mul_div_cancel _ Page.pageSize_pos
      rw [onDisk.pageCount_eq, count, MemoryStore.pageCount, MemoryStore.holding, depicts.size,
        full, Array.size_map, Array.size_range]
    · rw [onDisk.isLive_eq, found hn, Option.isSome_some]
    · rw [(onDisk.call _).2, MemoryStore.call, MemoryStore.read, hp, found hn]
      rfl

/-- A file of whole pages, or a missing one, is laid out after all calls as it has been told: a page
that nothing was said of has its old content, and every other one what was said last. -/
theorem laidOut_as_told (resolved : c.drive.resolve path = .ok place)
    (whole : (c.drive.contents place).size % pageSize = 0) :
    ∃ e f, c.openDisk path = (e, .ok f) ∧ ∀ xs : List StoreCall,
      (e.calls f xs).1.LaidOut f path place fun n =>
        (lastTold n (e.calls f xs).2).getD
          (Page.slice? (c.drive.contents place) (n * pageSize)) := by
  obtain ⟨e, f, opened, onDisk, -⟩ := exists_openDisk resolved whole
  refine ⟨e, f, opened, fun xs => ?_⟩
  obtain ⟨onDisk', log⟩ := onDisk.calls xs
  have laidOut := onDisk'.laidOut
  rw [funext (MemoryStore.page?_calls _ _ _), ← log,
    funext (MemoryStore.page?_holding _)] at laidOut
  exact laidOut

/-- A file with one page of sevens. -/
theorem laidOut_as_told_small :
    let bytes := (Page.filled 7).toArray
    let c : Catalog := { Catalog.empty with drive := Drive.empty.put "pages" bytes }
    ∃ e f, c.openDisk "pages" = (e, .ok f) ∧ ∀ xs : List StoreCall,
      (e.calls f xs).1.LaidOut f "pages" "pages" fun n =>
        (lastTold n (e.calls f xs).2).getD (Page.slice? bytes (n * pageSize)) := by
  intro bytes c
  have resolved : c.drive.resolve "pages" = .ok "pages" := rfl
  have contents : c.drive.contents "pages" = bytes :=
    (Drive.contents_put ..).trans (if_pos rfl)
  have whole : (c.drive.contents "pages").size % pageSize = 0 := by
    rw [contents]
    simp [bytes]
  have laidOut := laidOut_as_told resolved whole
  rwa [contents] at laidOut

end Catalog

end SecondChance
