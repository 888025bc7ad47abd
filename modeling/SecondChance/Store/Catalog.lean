import SecondChance.Store.Disk
import SecondChance.Store.Fault
import SecondChance.Store.Memory

/-!
The catalogue of open page files, in memory and on disk, together with the drive.

An open file has a number that never changes, an identity that may be changed, a name for messages
and a store behind it. The five calls `read`, `write`, `allocate`, `delete` and `sync` are the only
way in which pools reach a store; each of them says which fault it meets.
-/

namespace SecondChance

/-- What an open file keeps its pages in. -/
inductive Store
  | memory (m : MemoryStore)
  | disk (d : DiskStore)

def Store.pageCount : Store → Nat
  | .memory m => m.pageCount
  | .disk d => d.pageCount

structure OpenFile where
  id : FileId
  name : String
  store : Store

/-- All files ever opened, by number, and the drive behind those on disk. -/
structure Catalog where
  files : Array OpenFile
  drive : Drive
  /-- The number of the next fresh identity. -/
  nextId : Nat

namespace Catalog

def empty : Catalog := ⟨#[], .empty, 1⟩

def labels (c : Catalog) : Labels := fun f =>
  match c.files[f]? with
  | some file => ⟨file.id, file.name⟩
  | none => ⟨⟨0⟩, ""⟩

def setStore (c : Catalog) (f : FileNo) (s : Store) : Catalog :=
  { c with files := c.files.modify f fun file => { file with store := s } }

@[simp] theorem labels_setStore (c : Catalog) (f : FileNo) (s : Store) :
    (c.setStore f s).labels = c.labels := by
  funext g
  simp only [labels, setStore, Array.getElem?_modify]
  by_cases h : f = g
  · subst h
    cases c.files[f]? <;> simp
  · simp [h]

def add (c : Catalog) (name : String) (s : Store) : Catalog × FileNo :=
  ({ c with files := c.files.push ⟨⟨c.nextId⟩, name, s⟩, nextId := c.nextId + 1 }, c.files.size)

def openMemory (c : Catalog) (name : String) (limit : Option Nat) : Catalog × FileNo :=
  c.add name (.memory (.new limit))

def openDisk (c : Catalog) (path : String) : Catalog × Except StoreError FileNo :=
  match c.drive.openOrCreate path with
  | (drive, .error e) => ({ c with drive := drive }, .error (.io e))
  | (drive, .ok place) =>
    let c := { c with drive := drive }
    match DiskStore.ofBytes path place (drive.contents place) with
    | .error e => (c, .error e)
    | .ok d =>
      let (c, f) := c.add path (.disk d)
      (c, .ok f)

def copyId (c : Catalog) (f g : FileNo) : Catalog :=
  { c with files := c.files.modify f fun file => { file with id := (c.labels g).id } }

def renewId (c : Catalog) (f : FileNo) : Catalog :=
  { c with
    files := c.files.modify f fun file => { file with id := ⟨c.nextId⟩ }
    nextId := c.nextId + 1 }

def pageCount (c : Catalog) (f : FileNo) : Nat :=
  match c.files[f]? with
  | some file => file.store.pageCount
  | none => 0

def unopened : StoreError := .io .noEntry

def read (c : Catalog) (fault : Option Fault) (f : FileNo) (n : PageNo) (buffer : Buffer) :
    Catalog × Except StoreError Page :=
  let undisturbed (c : Catalog) : Catalog × Except StoreError Page :=
    match c.files[f]? with
    | none => (c, .error unopened)
    | some ⟨_, name, .memory m⟩ =>
      let (m, r) := m.read name n buffer
      (c.setStore f (.memory m), r)
    | some ⟨_, name, .disk d⟩ => (c, d.read name (c.drive.contents d.place) n buffer)
  let (c, r) := Fault.disturb fault (c.labels f).name n undisturbed c
  (c, r.map (Fault.delivered fault buffer))

def write (c : Catalog) (fault : Option Fault) (f : FileNo) (n : PageNo) (buffer : Buffer) :
    Catalog × Except StoreError Unit :=
  let undisturbed (c : Catalog) : Catalog × Except StoreError Unit :=
    match c.files[f]? with
    | none => (c, .error unopened)
    | some ⟨_, name, .memory m⟩ =>
      let (m, r) := m.write name n buffer
      (c.setStore f (.memory m), r)
    | some ⟨_, name, .disk d⟩ =>
      let (bytes, r) := d.write name (c.drive.contents d.place) n buffer
      ({ c with drive := c.drive.put d.place bytes }, r)
  Fault.disturb fault (c.labels f).name n undisturbed c

def allocate (c : Catalog) (fault : Option Fault) (f : FileNo) :
    Catalog × Except StoreError PageNo :=
  let undisturbed (c : Catalog) : Catalog × Except StoreError PageNo :=
    match c.files[f]? with
    | none => (c, .error unopened)
    | some ⟨_, _, .memory m⟩ =>
      let (m, r) := m.allocate
      (c.setStore f (.memory m), r)
    | some ⟨_, _, .disk d⟩ =>
      let (d, bytes, n) := d.allocate (c.drive.contents d.place)
      ({ c with drive := c.drive.put d.place bytes }.setStore f (.disk d), .ok n)
  Fault.disturb fault (c.labels f).name 0 undisturbed c

def delete (c : Catalog) (fault : Option Fault) (f : FileNo) (n : PageNo) :
    Catalog × Except StoreError Unit :=
  let undisturbed (c : Catalog) : Catalog × Except StoreError Unit :=
    match c.files[f]? with
    | none => (c, .error unopened)
    | some ⟨_, name, .memory m⟩ =>
      let (m, r) := m.delete name n
      (c.setStore f (.memory m), r)
    | some ⟨_, name, .disk d⟩ =>
      let (d, bytes, r) := d.delete name (c.drive.contents d.place) n
      ({ c with drive := c.drive.put d.place bytes }.setStore f (.disk d), r)
  Fault.disturb fault (c.labels f).name n undisturbed c

/-- Makes sure that everything written so far is on the medium, which here it always is. -/
def sync (c : Catalog) (fault : Option Fault) (f : FileNo) : Catalog × Except StoreError Unit :=
  Fault.disturb fault (c.labels f).name 0 (fun c => (c, .ok ())) c

end Catalog

end SecondChance
