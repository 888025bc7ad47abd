import SecondChance.Store.Buffer
import SecondChance.Store.Drive

/-!
Page files on disk: page `n` lies at byte `n * pageSize` of one file of the operating system.

Which pages are deleted is remembered only while the file is open; a deleted page is overwritten
with zeros, and after the file is opened again every slot is live. The functions here take the bytes
of the file and give back the bytes it has afterwards, so the file can also be changed behind a
page file's back.
-/

namespace SecondChance

structure DiskStore where
  /-- Where its bytes are on the drive. -/
  place : String
  /-- For every slot, whether its page is live. -/
  live : Array Bool

namespace DiskStore

/-- Opens a file of whole pages, all of them live. -/
def ofBytes (path place : String) (bytes : Bytes) : Except StoreError DiskStore :=
  if bytes.size % pageSize = 0 then
    .ok ⟨place, Array.replicate (bytes.size / pageSize) true⟩
  else
    .error (.corrupted
      s!"{path}: length {bytes.size} is not a multiple of page size {pageSize}")

def pageCount (d : DiskStore) : Nat := d.live.size

def isLive (d : DiskStore) (n : PageNo) : Bool := d.live[n]?.getD false

def checkLive (name : String) (d : DiskStore) (n : PageNo) : Except StoreError Unit :=
  if d.isLive n then .ok () else .error (.pageNotFound name n)

def firstFree? (d : DiskStore) : Option PageNo := d.live.toList.findIdx? (· == false)

def store (bytes : Bytes) (n : PageNo) (p : Page) : Bytes :=
  bytes.overwrite (n * pageSize) p.toArray

/-- Reads a live page. A page that the file does not hold in full cannot be read. -/
def read (name : String) (d : DiskStore) (bytes : Bytes) (n : PageNo) (buffer : Buffer) :
    Except StoreError Page :=
  match buffer.check, d.checkLive name n with
  | .error e, _ => .error e
  | .ok _, .error e => .error e
  | .ok _, .ok () =>
    match Page.slice? bytes (n * pageSize) with
    | some p => .ok p
    | none => .error (.io .endOfFile)

def write (name : String) (d : DiskStore) (bytes : Bytes) (n : PageNo) (buffer : Buffer) :
    Bytes × Except StoreError Unit :=
  match buffer.check, d.checkLive name n with
  | .error e, _ => (bytes, .error e)
  | .ok _, .error e => (bytes, .error e)
  | .ok p, .ok () => (store bytes n p, .ok ())

/-- Hands out the lowest free number, whose slot is already zeroed, or appends a slot of zeros. -/
def allocate (d : DiskStore) (bytes : Bytes) : DiskStore × Bytes × PageNo :=
  match d.firstFree? with
  | some n => ({ d with live := d.live.setIfInBounds n true }, bytes, n)
  | none => ({ d with live := d.live.push true }, store bytes d.pageCount .zero, d.pageCount)

/-- Zeroes the slot of a live page and makes its number free for reuse. -/
def delete (name : String) (d : DiskStore) (bytes : Bytes) (n : PageNo) :
    DiskStore × Bytes × Except StoreError Unit :=
  match d.checkLive name n with
  | .error e => (d, bytes, .error e)
  | .ok () => ({ d with live := d.live.setIfInBounds n false }, store bytes n .zero, .ok ())

end DiskStore

end SecondChance
