import SecondChance.Error

/-!
The buffers that callers hand to a page file.

A call can only succeed with a buffer of exactly one page. Of any other buffer nothing but its
length matters, because every file refuses it before it looks at anything else.
-/

namespace SecondChance

inductive Buffer
  | page (content : Page)
  | misfit (size : Nat) (size_ne : size ≠ pageSize)

def Buffer.ofBytes (bytes : Bytes) : Buffer :=
  if h : bytes.size = pageSize then .page ⟨bytes, h⟩ else .misfit bytes.size h

@[simp] theorem Buffer.ofBytes_toArray (p : Page) : Buffer.ofBytes p.toArray = .page p :=
  dif_pos p.size_toArray

/-- The content of a buffer that has the right length. -/
def Buffer.check : Buffer → Except StoreError Page
  | .page content => .ok content
  | .misfit size _ => .error (.wrongBufferSize pageSize size)

@[simp] theorem Buffer.check_page (p : Page) : (Buffer.page p).check = .ok p := rfl

theorem Buffer.check_ofBytes_eq_error_iff (bytes : Bytes) (e : StoreError) :
    (Buffer.ofBytes bytes).check = .error e ↔
      bytes.size ≠ pageSize ∧ e = .wrongBufferSize pageSize bytes.size := by
  unfold Buffer.ofBytes
  split
  · simp_all [Buffer.check]
  · next h => exact ⟨fun he => ⟨h, (Except.error.inj he).symm⟩, fun he => by rw [he.2]; rfl⟩

end SecondChance
