import SecondChance.Store.Buffer

/-!
Page files kept in memory.

The file has one slot for every page number ever handed out. A slot is empty while its page is
deleted, so "live" and "free for reuse" are one condition and cannot disagree. Numbers are reused
lowest first, and only calls that succeed are counted.
-/

namespace SecondChance

structure Stats where
  reads : Nat := 0
  writes : Nat := 0
  allocations : Nat := 0
  deletions : Nat := 0
  deriving DecidableEq

/-- A page file in memory. -/
structure MemoryStore where
  /-- One slot per page number; a slot without content belongs to a deleted page. -/
  slots : Array (Option Page)
  /-- The number of slots that the file may not exceed, if there is one. -/
  limit : Option Nat
  stats : Stats

namespace MemoryStore

def new (limit : Option Nat) : MemoryStore := ⟨#[], limit, {}⟩

def page? (m : MemoryStore) (n : PageNo) : Option Page := m.slots[n]?.join

/-- One past the highest page number ever handed out. -/
def pageCount (m : MemoryStore) : Nat := m.slots.size

def firstFree? (m : MemoryStore) : Option PageNo := m.slots.toList.findIdx? Option.isNone

def read (name : String) (m : MemoryStore) (n : PageNo) (buffer : Buffer) :
    MemoryStore × Except StoreError Page :=
  match buffer.check, m.page? n with
  | .error e, _ => (m, .error e)
  | .ok _, none => (m, .error (.pageNotFound name n))
  | .ok _, some p => ({ m with stats.reads := m.stats.reads + 1 }, .ok p)

def write (name : String) (m : MemoryStore) (n : PageNo) (buffer : Buffer) :
    MemoryStore × Except StoreError Unit :=
  match buffer.check, m.page? n with
  | .error e, _ => (m, .error e)
  | .ok _, none => (m, .error (.pageNotFound name n))
  | .ok p, some _ =>
    ({ m with slots := m.slots.setIfInBounds n (some p), stats.writes := m.stats.writes + 1 },
      .ok ())

/-- Hands out the lowest free number, or the next one if the limit allows it, with a page of
zeros. -/
def allocate (m : MemoryStore) : MemoryStore × Except StoreError PageNo :=
  let counted := { m.stats with allocations := m.stats.allocations + 1 }
  match m.firstFree? with
  | some n => ({ m with slots := m.slots.setIfInBounds n (some .zero), stats := counted }, .ok n)
  | none =>
    if m.limit.any (· ≤ m.pageCount) then (m, .error .full)
    else ({ m with slots := m.slots.push (some .zero), stats := counted }, .ok m.pageCount)

def delete (name : String) (m : MemoryStore) (n : PageNo) : MemoryStore × Except StoreError Unit :=
  match m.page? n with
  | none => (m, .error (.pageNotFound name n))
  | some _ =>
    ({ m with slots := m.slots.setIfInBounds n none, stats.deletions := m.stats.deletions + 1 },
      .ok ())

end MemoryStore

end SecondChance
