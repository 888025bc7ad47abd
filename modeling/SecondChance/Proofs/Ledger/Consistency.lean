import Mathlib.Data.List.Nodup
import SecondChance.Pool.Diagnostics
import SecondChance.Proofs.Ledger.Decisions
import SecondChance.Proofs.Ledger.Findings

/-!
The page table and the frames say the same.

A ledger is *consistent* if its table leads from a key to a frame exactly when the frame holds the
page of that key, and if its hand points at one of its frames. Every decision keeps a ledger
consistent, as long as the files go on reporting the identities they have. In a consistent ledger
the audit finds nothing, the table has as many entries as there are occupied frames, and a page is
never put into a frame that is taken or entered into the table a second time.
-/

namespace SecondChance.Ledger

/-- The table leads from a key to a frame exactly if the frame holds a page of that key, and the
hand points at one of the frames. So there is one entry for each occupied frame, and no page is in
two frames. -/
structure Consistent (labels : Labels) (l : Ledger) : Prop where
  find?_iff (k : PageKey) (i : FrameNo) :
    l.table.find? k = some i ↔ ∃ o, l.occupant? i = some o ∧ o.key labels = k
  hand_lt : l.hand < l.size

namespace Consistent

variable {labels : Labels} {l : Ledger}

theorem new {n : Nat} (hn : 0 < n) : (Ledger.new n).Consistent labels where
  find?_iff k i := by
    rw [occupant?_new]
    exact ⟨nofun, fun ⟨_, hp, _⟩ => nomatch hp⟩
  hand_lt := by
    show n - 1 < (Array.replicate n Frame.unused).size
    rw [Array.size_replicate]
    omega

section Keys

variable (h : l.Consistent labels)
include h

theorem size_pos : 0 < l.size := Nat.zero_lt_of_lt h.hand_lt

theorem find?_key {i : FrameNo} {o : Occupant} (ho : l.occupant? i = some o) :
    l.table.find? (o.key labels) = some i :=
  (h.find?_iff _ _).2 ⟨o, ho, rfl⟩

/-- A frame to which the table leads from a key holds a page of that key. -/
theorem occupant?_of_find? {k : PageKey} {i : FrameNo} (hk : l.table.find? k = some i) :
    ∃ o, l.occupant? i = some o ∧ o.key labels = k :=
  (h.find?_iff k i).1 hk

theorem occupant?_ne_none {k : PageKey} {i : FrameNo} (hk : l.table.find? k = some i) :
    l.occupant? i ≠ none := by
  obtain ⟨o, ho, -⟩ := h.occupant?_of_find? hk
  rw [ho]
  exact Option.some_ne_none o

theorem frame_inj {i j : FrameNo} {o p : Occupant} (hi : l.occupant? i = some o)
    (hj : l.occupant? j = some p) (hk : o.key labels = p.key labels) : i = j := by
  have hi := h.find?_key hi
  have hj := h.find?_key hj
  rw [hk, hj] at hi
  exact (Option.some.inj hi).symm

end Keys

/-! ### Every change keeps the two accounts in step -/

theorem cooled {l' : Ledger} (h : l.Consistent labels) (hc : l.Cooled l') :
    l'.Consistent labels where
  find?_iff k i := by
    rw [hc.table, h.find?_iff]
    constructor
    · rintro ⟨o, ho, hk⟩
      obtain ⟨r, hr⟩ := hc.after ho
      exact ⟨_, hr, hk⟩
    · rintro ⟨o, ho, hk⟩
      obtain ⟨r, hr⟩ := hc.before ho
      exact ⟨_, hr, hk⟩
  hand_lt := hc.hand h.hand_lt

theorem vacate (h : l.Consistent labels) {i : FrameNo} {o : Occupant}
    (ho : l.occupant? i = some o) : (l.vacate i (o.key labels)).Consistent labels where
  find?_iff k j := by
    rw [table_vacate, Table.find?_erase, occupant?_vacate (lt_size_of_occupant? ho)]
    by_cases hk : o.key labels = k
    · rw [if_pos hk]
      refine ⟨nofun, ?_⟩
      rintro ⟨p, hp, rfl⟩
      by_cases hij : i = j
      · rw [if_pos hij] at hp
        cases hp
      · rw [if_neg hij] at hp
        exact (hij (h.frame_inj ho hp hk)).elim
    · rw [if_neg hk, h.find?_iff]
      by_cases hij : i = j
      · subst hij
        rw [if_pos rfl]
        refine ⟨?_, nofun⟩
        rintro ⟨p, hp, rfl⟩
        rw [ho] at hp
        exact (hk (congrArg _ (Option.some.inj hp))).elim
      · rw [if_neg hij]
  hand_lt := by simpa using h.hand_lt

theorem setOccupant (h : l.Consistent labels) {i : FrameNo} {o p : Occupant}
    (ho : l.occupant? i = some o) (hk : p.key labels = o.key labels) :
    (l.setOccupant i p).Consistent labels where
  find?_iff k j := by
    rw [table_setOccupant, occupant?_setOccupant (lt_size_of_occupant? ho), h.find?_iff]
    by_cases hij : i = j
    · subst hij
      simp [ho, hk]
    · rw [if_neg hij]
  hand_lt := by simpa using h.hand_lt

theorem install (h : l.Consistent labels) {i : FrameNo} (hi : i < l.size)
    (ho : l.occupant? i = none) {file : FileNo} {page : PageNo}
    (hk : l.table.find? (labels.key file page) = none) :
    (l.install i (labels.key file page) file page).Consistent labels where
  find?_iff k j := by
    rw [table_install, Table.find?_insert, occupant?_install hi]
    by_cases hkk : labels.key file page = k
    · rw [if_pos hkk]
      by_cases hij : i = j
      · rw [if_pos hij]
        exact ⟨fun _ => ⟨_, rfl, hkk⟩, fun _ => congrArg some hij⟩
      · rw [if_neg hij]
        refine ⟨fun he => (hij (Option.some.inj he)).elim, fun he => ?_⟩
        rw [← h.find?_iff, ← hkk, hk] at he
        cases he
    · rw [if_neg hkk, h.find?_iff]
      by_cases hij : i = j
      · subst hij
        simp only [ho, if_true, Option.some.injEq, false_and, exists_false, false_iff, reduceCtorEq]
        rintro ⟨p, rfl, hp⟩
        exact hkk hp
      · rw [if_neg hij]
  hand_lt := by simpa using h.hand_lt

theorem eased {l' : Ledger} (h : l.Consistent labels) (he : l.Eased labels l') :
    l'.Consistent labels := by
  induction he with
  | cooled hc => exact h.cooled hc
  | vacated _ ho _ _ ih => exact ih.vacate ho

theorem settle (h : l.Consistent labels) (t : Transfer) (ok : Bool) :
    (l.settle labels t ok).Consistent labels := by
  obtain ⟨kind, stay⟩ := t
  by_cases hio : ∃ o, (l.frame stay.frame).occupantAt stay.generation = some o ∧ o.io = .busy kind
  · obtain ⟨o, ho, hio⟩ := hio
    have ho' := (occupantAt_frame.1 ho).2
    cases ok with
    | true =>
      rw [settle_succeeded ho hio]
      exact h.setOccupant ho' rfl
    | false =>
      cases kind with
      | load =>
        rw [settle_load_failed ho hio]
        exact h.vacate ho'
      | writeBack =>
        rw [settle_writeBack_failed ho hio]
        exact h.setOccupant ho' rfl
  · rw [settle_of_over fun o ho hb => hio ⟨o, ho, hb⟩]
    exact h

theorem unpinStay {l' : Ledger} {stay : Stay} {dirty : Bool} {r : Except PoolError Unit}
    (h : l.Consistent labels) (hr : l.unpinStay labels stay dirty = (l', r)) :
    l'.Consistent labels := by
  cases unpinStay_cases hr with
  | stale => exact h
  | unpinned => exact h
  | ok ho => exact h.setOccupant (occupantAt_frame.1 ho).2 rfl

theorem unpinPage {l' : Ledger} {file : FileNo} {page : PageNo} {dirty : Bool}
    {r : Except PoolError (Option (FrameNo × Nat))} (h : l.Consistent labels)
    (hr : l.unpinPage labels file page dirty = (l', r)) : l'.Consistent labels := by
  rcases unpinPage_cases hr with ⟨rfl, -⟩ | ⟨i, o, -, ho, -, rfl, -⟩
  · exact h
  · exact h.setOccupant ho rfl

/-! ### What follows from consistency -/

theorem audit_eq_ok (h : l.Consistent labels) : l.audit labels = .ok () := by
  refine audit_eq_ok_iff.2 ⟨fun i o ho => h.find?_key ho, fun k i hk => ?_⟩
  exact h.occupant?_of_find? ((l.table.mem_entries_iff k i).1 hk)

theorem resident_eq (h : l.Consistent labels) :
    l.resident = (List.range l.size).countP fun i => (l.occupant? i).isSome := by
  have hkeys : (l.table.entries.map Prod.snd).Nodup := by
    refine List.Nodup.map_on ?_ (List.Nodup.of_map _ l.table.nodup_keys)
    rintro ⟨k, i⟩ hk ⟨k', i'⟩ hk' rfl
    obtain ⟨o, ho, rfl⟩ := h.occupant?_of_find? ((l.table.mem_entries_iff k i).1 hk)
    obtain ⟨o', ho', rfl⟩ := h.occupant?_of_find? ((l.table.mem_entries_iff k' i).1 hk')
    rw [ho] at ho'
    rw [Option.some.inj ho']
  have hframes : ((List.range l.size).filter fun i => (l.occupant? i).isSome).Nodup :=
    List.nodup_range.filter _
  have hperm : (l.table.entries.map Prod.snd).Perm
      ((List.range l.size).filter fun i => (l.occupant? i).isSome) := by
    refine (List.perm_ext_iff_of_nodup hkeys hframes).2 fun i => ?_
    rw [List.mem_map, List.mem_filter, List.mem_range]
    constructor
    · rintro ⟨⟨k, j⟩, hk, rfl⟩
      obtain ⟨o, ho, -⟩ := h.occupant?_of_find? ((l.table.mem_entries_iff k j).1 hk)
      exact ⟨lt_size_of_occupant? ho, by rw [ho]; rfl⟩
    · rintro ⟨-, hi⟩
      obtain ⟨o, ho⟩ := Option.isSome_iff_exists.1 hi
      exact ⟨(o.key labels, i), (l.table.mem_entries_iff _ _).2 (h.find?_key ho), rfl⟩
  calc l.resident = (l.table.entries.map Prod.snd).length := (List.length_map ..).symm
    _ = _ := by rw [hperm.length_eq, List.countP_eq_length_filter]

end Consistent

end SecondChance.Ledger
