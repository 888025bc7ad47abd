import SecondChance.Proofs.Store.Pages

/-!
Calls to one page file, one after the other.

Which file is meant is for the catalogue to know; what a call comes to is up to the store behind the
file. A store in memory answers from its slots, and a store on disk from its list of live pages and
the bytes of its file. A call that is refused changes neither.
-/

namespace SecondChance

/-- What can be asked of a page file. -/
inductive StoreCall
  | read (page : PageNo) (buffer : Buffer)
  | write (page : PageNo) (buffer : Buffer)
  | allocate
  | delete (page : PageNo)
  | count
  | sync

/-- What a page file answers. -/
inductive StoreAnswer
  | content (p : Page)
  | number (n : Nat)
  | done
  | refused (e : StoreError)

def StoreAnswer.ofResult {α : Type} (ok : α → StoreAnswer) : Except StoreError α → StoreAnswer
  | .ok a => ok a
  | .error e => .refused e

/-- Calls one after the other, each of which is noted down with its answer. -/
def dialogue {σ : Type} (call : σ → StoreCall → σ × StoreAnswer) (s : σ) :
    List StoreCall → σ × List (StoreCall × StoreAnswer)
  | [] => (s, [])
  | x :: xs =>
    let (s, a) := call s x
    let (s, log) := dialogue call s xs
    (s, (x, a) :: log)

def MemoryStore.call (name : String) (m : MemoryStore) : StoreCall → MemoryStore × StoreAnswer
  | .read n buffer => (m.read name n buffer).map id (.ofResult .content)
  | .write n buffer => (m.write name n buffer).map id (.ofResult fun _ => .done)
  | .allocate => m.allocate.map id (.ofResult .number)
  | .delete n => (m.delete name n).map id (.ofResult fun _ => .done)
  | .count => (m, .number m.pageCount)
  | .sync => (m, .done)

/-- What an undisturbed call to a store on disk comes to, with the bytes of its file. -/
def DiskStore.call (name : String) (d : DiskStore) (bytes : Bytes) :
    StoreCall → DiskStore × Bytes × StoreAnswer
  | .read n buffer => (d, bytes, .ofResult .content (d.read name bytes n buffer))
  | .write n buffer =>
    let (bytes, r) := d.write name bytes n buffer
    (d, bytes, .ofResult (fun _ => .done) r)
  | .allocate =>
    let (d, bytes, n) := d.allocate bytes
    (d, bytes, .number n)
  | .delete n =>
    let (d, bytes, r) := d.delete name bytes n
    (d, bytes, .ofResult (fun _ => .done) r)
  | .count => (d, bytes, .number d.pageCount)
  | .sync => (d, bytes, .done)

def Catalog.call (c : Catalog) (f : FileNo) : StoreCall → Catalog × StoreAnswer
  | .read n buffer => (c.read none f n buffer).map id (.ofResult .content)
  | .write n buffer => (c.write none f n buffer).map id (.ofResult fun _ => .done)
  | .allocate => (c.allocate none f).map id (.ofResult .number)
  | .delete n => (c.delete none f n).map id (.ofResult fun _ => .done)
  | .count => (c, .number (c.pageCount f))
  | .sync => (c.sync none f).map id (.ofResult fun _ => .done)

def MemoryStore.calls (name : String) (m : MemoryStore) (xs : List StoreCall) :
    MemoryStore × List (StoreCall × StoreAnswer) := dialogue (fun m x => m.call name x) m xs

def Catalog.calls (c : Catalog) (f : FileNo) (xs : List StoreCall) :
    Catalog × List (StoreCall × StoreAnswer) := dialogue (fun c x => c.call f x) c xs

/-- If related parties answer each call alike and are related again, they answer all calls alike. -/
theorem dialogue_related {σ τ : Type} {R : σ → τ → Prop} {call : σ → StoreCall → σ × StoreAnswer}
    {call' : τ → StoreCall → τ × StoreAnswer}
    (step : ∀ {s t} x, R s t → R (call s x).1 (call' t x).1 ∧ (call s x).2 = (call' t x).2)
    {s : σ} {t : τ} (start : R s t) (xs : List StoreCall) :
    R (dialogue call s xs).1 (dialogue call' t xs).1 ∧
      (dialogue call s xs).2 = (dialogue call' t xs).2 := by
  induction xs generalizing s t with
  | nil => exact ⟨start, rfl⟩
  | cons x xs ih =>
    obtain ⟨next, answer⟩ := step x start
    obtain ⟨last, log⟩ := ih next
    refine ⟨last, ?_⟩
    show (x, (call s x).2) :: (dialogue call (call s x).1 xs).2 = _
    rw [answer, log]
    rfl

/-- Calls that commute with a function of the state answer alike in any sequence. -/
theorem dialogue_map {σ τ : Type} {call : σ → StoreCall → σ × StoreAnswer}
    {call' : τ → StoreCall → τ × StoreAnswer} {g : σ → τ}
    (h : ∀ s x, call' (g s) x = (g (call s x).1, (call s x).2)) (s : σ) (xs : List StoreCall) :
    dialogue call' (g s) xs = (g (dialogue call s xs).1, (dialogue call s xs).2) := by
  have step {s : σ} {t : τ} (x : StoreCall) (ht : g s = t) :
      g (call s x).1 = (call' t x).1 ∧ (call s x).2 = (call' t x).2 := by
    rw [← ht, h]
    exact ⟨rfl, rfl⟩
  obtain ⟨last, log⟩ := dialogue_related (R := fun s t => g s = t) step rfl xs
  exact Prod.ext last.symm log.symm

theorem Drive.put_self {d : Drive} {place : String} {bytes : Bytes}
    (h : d.contents? place = some bytes) : d.put place bytes = d := by
  obtain ⟨files, directories⟩ := d
  exact congrArg (Drive.mk · directories) (Table.insert_self h)

/-! ### Calls that are refused -/

theorem MemoryStore.call_refused {m : MemoryStore} {name : String} {x : StoreCall} {e : StoreError}
    (h : (m.call name x).2 = .refused e) : (m.call name x).1 = m := by
  cases x with
  | read n buffer =>
    rw [call, read] at h ⊢
    split at h
    · rfl
    · rfl
    · cases h
  | write n buffer =>
    rw [call, write] at h ⊢
    split at h
    · rfl
    · rfl
    · cases h
  | allocate =>
    rw [call, allocate] at h ⊢
    cases hn : m.firstFree? with
    | some n =>
      simp only [hn] at h
      cases h
    | none =>
      simp only [hn] at h ⊢
      by_cases full : m.limit.any (· ≤ m.pageCount) = true
      · rw [if_pos full]
        rfl
      · rw [if_neg full] at h
        cases h
  | delete n =>
    rw [call, delete] at h ⊢
    split at h
    · rfl
    · cases h
  | count | sync => rfl

theorem DiskStore.call_refused {d : DiskStore} {bytes : Bytes} {name : String} {x : StoreCall}
    {e : StoreError} (h : (d.call name bytes x).2.2 = .refused e) :
    (d.call name bytes x).1 = d ∧ (d.call name bytes x).2.1 = bytes := by
  cases x with
  | read n buffer => exact ⟨rfl, rfl⟩
  | write n buffer =>
    rw [call, write] at h ⊢
    cases hb : buffer.check with
    | error e => exact ⟨rfl, rfl⟩
    | ok p =>
      cases hl : d.checkLive name n with
      | error e => exact ⟨rfl, rfl⟩
      | ok =>
        rw [hb, hl] at h
        cases h
  | allocate => cases h
  | delete n =>
    rw [call, delete] at h ⊢
    cases hl : d.checkLive name n with
    | error e => exact ⟨rfl, rfl⟩
    | ok =>
      rw [hl] at h
      cases h
  | count | sync => exact ⟨rfl, rfl⟩

/-! ### Which store is called -/

theorem DiskStore.place_call (name : String) (d : DiskStore) (bytes : Bytes) (x : StoreCall) :
    (d.call name bytes x).1.place = d.place := by
  cases x with
  | allocate =>
    rw [call, allocate]
    cases d.firstFree? <;> rfl
  | delete n =>
    rw [call, delete]
    cases d.checkLive name n <;> rfl
  | _ => rfl

namespace Catalog

variable {c : Catalog} {f : FileNo} {i : FileId} {name : String}

theorem call_memory {m : MemoryStore} (hf : c.files[f]? = some ⟨i, name, .memory m⟩)
    (x : StoreCall) :
    c.call f x = (c.setStore f (.memory (m.call name x).1), (m.call name x).2) := by
  have same : c.setStore f (.memory m) = c := setStore_self hf
  cases x with
  | read n buffer =>
    simp only [call, read, Fault.disturb_none, hf, Fault.map_delivered_none]
    rfl
  | write n buffer =>
    simp only [call, write, Fault.disturb_none, hf]
    rfl
  | allocate =>
    simp only [call, allocate, Fault.disturb_none, hf]
    rfl
  | delete n =>
    simp only [call, delete, Fault.disturb_none, hf]
    rfl
  | count => simp only [call, pageCount, hf, MemoryStore.call, same, Store.pageCount]
  | sync =>
    rw [MemoryStore.call, same]
    rfl

theorem call_disk {d : DiskStore} {bytes : Bytes} (hf : c.files[f]? = some ⟨i, name, .disk d⟩)
    (hb : c.drive.contents? d.place = some bytes) (x : StoreCall) :
    c.call f x = (c.setDisk f (d.call name bytes x).1 (d.call name bytes x).2.1,
      (d.call name bytes x).2.2) := by
  have contents : c.drive.contents d.place = bytes := by rw [Drive.contents, hb, Option.getD_some]
  have same : c.setDisk f d bytes = c := by rw [setDisk_self hf rfl, Drive.put_self hb]
  cases x with
  | read n buffer =>
    simp only [call, read, Fault.disturb_none, hf, Fault.map_delivered_none, contents,
      DiskStore.call, same]
    rfl
  | write n buffer =>
    simp only [call, write, Fault.disturb_none, hf, contents, DiskStore.call, Prod.map,
      setDisk_self hf rfl, id_eq]
  | allocate =>
    simp only [call, allocate, Fault.disturb_none, hf, contents]
    rfl
  | delete n =>
    simp only [call, delete, Fault.disturb_none, hf, contents]
    rfl
  | count => simp only [call, pageCount, hf, DiskStore.call, same, Store.pageCount]
  | sync =>
    rw [DiskStore.call, same]
    rfl

theorem call_memory_refused {m : MemoryStore} (hf : c.files[f]? = some ⟨i, name, .memory m⟩)
    {x : StoreCall} {e : StoreError} (h : (c.call f x).2 = .refused e) : (c.call f x).1 = c := by
  rw [call_memory hf] at h ⊢
  dsimp only at h ⊢
  rw [MemoryStore.call_refused h]
  exact setStore_self hf

theorem call_disk_refused {d : DiskStore} {bytes : Bytes}
    (hf : c.files[f]? = some ⟨i, name, .disk d⟩) (hb : c.drive.contents? d.place = some bytes)
    {x : StoreCall} {e : StoreError} (h : (c.call f x).2 = .refused e) : (c.call f x).1 = c := by
  rw [call_disk hf hb] at h ⊢
  obtain ⟨store, contents⟩ := DiskStore.call_refused h
  dsimp only
  rw [store, contents, setDisk_self hf rfl, Drive.put_self hb]

end Catalog

end SecondChance
