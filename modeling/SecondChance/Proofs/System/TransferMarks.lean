import Mathlib.Logic.Function.Basic
import SecondChance.Proofs.System.MoveDecomposition

/-!
Transfers and the tasks that have them under way.

A frame is busy exactly while some task has the transfer of its page under way, and no two tasks
have a transfer of the same frame. So a page that is being moved cannot leave its frame, and whoever
ends a transfer finds the page where it was when the transfer began.
-/

namespace SecondChance

namespace Ledger

theorem frame_setOccupant_of_ne (l : Ledger) {i j : FrameNo} (h : i ≠ j) (o : Occupant) :
    (l.setOccupant i o).frame j = l.frame j := frame_setFrame_of_ne l h _

theorem frame_vacate_of_ne (l : Ledger) {i j : FrameNo} (h : i ≠ j) (k : PageKey) :
    (l.vacate i k).frame j = l.frame j := frame_setFrame_of_ne l h _

theorem frame_install_of_ne (l : Ledger) {i j : FrameNo} (h : i ≠ j) (k : PageKey) (f : FileNo)
    (p : PageNo) : (l.install i k f p).frame j = l.frame j := frame_setFrame_of_ne l h _

theorem stayOf_setOccupant (l : Ledger) (i j : FrameNo) (p o : Occupant) :
    (l.setOccupant i p).stayOf j o = l.stayOf j o := by
  have hg := l.generation_setOccupant i j p
  unfold generation at hg
  rw [stayOf, hg, stayOf]

/-- `carry` tells which transfer each task has under way: the frame of a transfer holds its page
with the mark of its kind, every frame with a mark has a transfer, and no two transfers are of one
frame. -/
structure Escorted (l : Ledger) (carry : TaskId → Option Transfer) : Prop where
  seated {t : TaskId} {x : Transfer} (hx : carry t = some x) : ∃ o,
    l.occupant? x.stay.frame = some o ∧ o.io = .busy x.kind ∧ x.stay = l.stayOf x.stay.frame o
  carried {i : FrameNo} {o : Occupant} {kind : Transfer.Kind} (ho : l.occupant? i = some o)
    (hio : o.io = .busy kind) : ∃ t, carry t = some ⟨kind, l.stayOf i o⟩
  alone {t t' : TaskId} {x x' : Transfer} (hx : carry t = some x) (hx' : carry t' = some x')
    (hf : x.stay.frame = x'.stay.frame) : t = t'

namespace Escorted

variable {l l' : Ledger} {carry : TaskId → Option Transfer}

theorem new (n : Nat) : (Ledger.new n).Escorted fun _ => none where
  seated hx := nomatch hx
  carried {i o _} ho := by
    rw [occupant?_new] at ho
    cases ho
  alone hx := nomatch hx

theorem cooled (h : l.Escorted carry) (hc : l.Cooled l') : l'.Escorted carry where
  seated hx := by
    obtain ⟨o, ho, hio, hs⟩ := h.seated hx
    obtain ⟨r, hr⟩ := hc.after ho
    exact ⟨_, hr, hio, hs.trans (by rw [stayOf, stayOf, ← generation, ← generation, hc.generation])⟩
  carried ho hio := by
    obtain ⟨r, hr⟩ := hc.before ho
    obtain ⟨t, ht⟩ := h.carried hr hio
    exact ⟨t, ht.trans (by rw [stayOf, stayOf, ← generation, ← generation, hc.generation])⟩
  alone := h.alone

section OneFrame

variable (h : l.Escorted carry) {i : FrameNo} (hoff : ∀ j, i ≠ j → l'.frame j = l.frame j)
include h hoff

theorem seated_off {t : TaskId} {x : Transfer} (hx : carry t = some x) (hi : i ≠ x.stay.frame) :
    ∃ o, l'.occupant? x.stay.frame = some o ∧ o.io = .busy x.kind ∧
      x.stay = l'.stayOf x.stay.frame o := by
  obtain ⟨o, ho, hio, hs⟩ := h.seated hx
  refine ⟨o, ?_, hio, ?_⟩
  · rw [occupant?, hoff _ hi]
    exact ho
  · rw [stayOf, hoff _ hi]
    exact hs

theorem carried_off {j : FrameNo} {o : Occupant} {kind : Transfer.Kind} (hi : i ≠ j)
    (ho : l'.occupant? j = some o) (hio : o.io = .busy kind) :
    ∃ t, carry t = some ⟨kind, l'.stayOf j o⟩ := by
  rw [occupant?, hoff _ hi] at ho
  rw [stayOf, hoff _ hi]
  exact h.carried ho hio

omit hoff in
theorem ne_frame (hold : ∀ o, l.occupant? i = some o → o.io = .idle) {t : TaskId} {x : Transfer}
    (hx : carry t = some x) : i ≠ x.stay.frame := by
  rintro rfl
  obtain ⟨o, ho, hio, -⟩ := h.seated hx
  rw [hold o ho] at hio
  cases hio

theorem rest (hold : ∀ o, l.occupant? i = some o → o.io = .idle)
    (hnew : ∀ o, l'.occupant? i = some o → o.io = .idle) : l'.Escorted carry where
  seated hx := h.seated_off hoff hx (h.ne_frame hold hx)
  carried {j o kind} ho hio := by
    by_cases hi : i = j
    · subst hi
      rw [hnew o ho] at hio
      cases hio
    · exact h.carried_off hoff hi ho hio
  alone := h.alone

theorem start {t : TaskId} {kind : Transfer.Kind} {p : Occupant} (ht : carry t = none)
    (hold : ∀ o, l.occupant? i = some o → o.io = .idle) (hp : l'.occupant? i = some p)
    (hio : p.io = .busy kind) :
    l'.Escorted (Function.update carry t (some ⟨kind, l'.stayOf i p⟩)) := by
  have cases {u : TaskId} {x : Transfer}
      (hx : Function.update carry t (some ⟨kind, l'.stayOf i p⟩) u = some x) :
      u = t ∧ x = ⟨kind, l'.stayOf i p⟩ ∨ u ≠ t ∧ carry u = some x := by
    rw [Function.update_apply] at hx
    split at hx
    · next hu => exact .inl ⟨hu, (Option.some.inj hx).symm⟩
    · next hu => exact .inr ⟨hu, hx⟩
  constructor
  case seated =>
    intro u x hx
    rcases cases hx with ⟨-, rfl⟩ | ⟨-, hx⟩
    · exact ⟨p, hp, hio, rfl⟩
    · exact h.seated_off hoff hx (h.ne_frame hold hx)
  case carried =>
    intro j o k ho hk
    by_cases hi : i = j
    · subst hi
      rw [hp] at ho
      obtain rfl := Option.some.inj ho
      rw [hio] at hk
      obtain rfl := FrameIo.busy.inj hk
      exact ⟨t, Function.update_self ..⟩
    · obtain ⟨u, hu⟩ := h.carried_off hoff hi ho hk
      refine ⟨u, ?_⟩
      rw [Function.update_of_ne, hu]
      rintro rfl
      rw [ht] at hu
      cases hu
  case alone =>
    intro u u' x x' hx hx' hf
    rcases cases hx with ⟨rfl, rfl⟩ | ⟨-, hy⟩
    · rcases cases hx' with ⟨rfl, -⟩ | ⟨-, hy'⟩
      · rfl
      · exact (h.ne_frame hold hy' hf).elim
    · rcases cases hx' with ⟨rfl, rfl⟩ | ⟨-, hy'⟩
      · exact (h.ne_frame hold hy hf.symm).elim
      · exact h.alone hy hy' hf

theorem finish {t : TaskId} {x : Transfer} (hx : carry t = some x) (hi : x.stay.frame = i)
    (hnew : ∀ o, l'.occupant? i = some o → o.io = .idle) :
    l'.Escorted (Function.update carry t none) := by
  have others {u : TaskId} {y : Transfer} (hy : Function.update carry t none u = some y) :
      carry u = some y ∧ i ≠ y.stay.frame := by
    rw [Function.update_apply] at hy
    split at hy
    · cases hy
    · next hu => exact ⟨hy, fun hf => hu (h.alone hy hx (hf.symm.trans hi.symm))⟩
  constructor
  case seated =>
    intro u y hy
    obtain ⟨hy, hne⟩ := others hy
    exact h.seated_off hoff hy hne
  case carried =>
    intro j o k ho hk
    by_cases hj : i = j
    · subst hj
      rw [hnew o ho] at hk
      cases hk
    · obtain ⟨u, hu⟩ := h.carried_off hoff hj ho hk
      refine ⟨u, ?_⟩
      rw [Function.update_of_ne, hu]
      rintro rfl
      rw [hx] at hu
      exact hj (hi.symm.trans (congrArg (fun x => x.stay.frame) (Option.some.inj hu)))
  case alone =>
    intro u u' y y' hy hy' hf
    exact h.alone (others hy).1 (others hy').1 hf

end OneFrame

theorem vacate (h : l.Escorted carry) {i : FrameNo} {o : Occupant} (ho : l.occupant? i = some o)
    (hs : o.standing = .available) (k : PageKey) : (l.vacate i k).Escorted carry := by
  refine h.rest (fun j hj => frame_vacate_of_ne l hj k) (fun p hp => ?_) (fun p hp => ?_)
  · rw [ho] at hp
    exact Option.some.inj hp ▸ (Occupant.standing_eq_available.1 hs).2
  · rw [occupant?_vacate (lt_size_of_occupant? ho), if_pos rfl] at hp
    cases hp

theorem eased {labels : Labels} (h : l.Escorted carry) (he : l.Eased labels l') :
    l'.Escorted carry := by
  induction he with
  | cooled hc => exact h.cooled hc
  | vacated _ ho hs _ ih => exact ih.vacate ho hs _

theorem setOccupant (h : l.Escorted carry) {i : FrameNo} {o p : Occupant}
    (ho : l.occupant? i = some o) (hf : p.file = o.file) (hp : p.page = o.page)
    (hio : p.io = o.io) : (l.setOccupant i p).Escorted carry := by
  have hi := lt_size_of_occupant? ho
  have hs : (l.setOccupant i p).stayOf i p = l.stayOf i o := by
    rw [stayOf_setOccupant, stayOf, hf, hp, stayOf]
  constructor
  case seated =>
    intro t x hx
    by_cases hxi : i = x.stay.frame
    · obtain ⟨o', ho', hio', hs'⟩ := h.seated hx
      rw [← hxi, ho] at ho'
      obtain rfl := Option.some.inj ho'
      refine ⟨p, ?_, hio.trans hio', ?_⟩
      · rw [occupant?_setOccupant hi, if_pos hxi]
      · rw [← hxi, hs, hs', ← hxi]
    · exact h.seated_off (fun j hj => frame_setOccupant_of_ne l hj p) hx hxi
  case carried =>
    intro j q kind hq hk
    by_cases hj : i = j
    · subst hj
      rw [occupant?_setOccupant hi, if_pos rfl] at hq
      obtain rfl := Option.some.inj hq
      rw [hs]
      exact h.carried ho (hio.symm.trans hk)
    · exact h.carried_off (fun j hj => frame_setOccupant_of_ne l hj p) hj hq hk
  case alone => exact h.alone

theorem claim (h : l.Escorted carry) {t : TaskId} {i : FrameNo} {o : Occupant}
    (ht : carry t = none) (ho : l.occupant? i = some o) (hio : o.io = .idle) :
    (l.setOccupant i o.claimed).Escorted
      (Function.update carry t (some ⟨.writeBack, l.stayOf i o⟩)) := by
  have hp : (l.setOccupant i o.claimed).occupant? i = some o.claimed := by
    rw [occupant?_setOccupant (lt_size_of_occupant? ho), if_pos rfl]
  have hs : (l.setOccupant i o.claimed).stayOf i o.claimed = l.stayOf i o := stayOf_setOccupant ..
  rw [← hs]
  refine h.start (fun j hj => frame_setOccupant_of_ne l hj _) ht (fun q hq => ?_) hp rfl
  rw [ho] at hq
  exact Option.some.inj hq ▸ hio

theorem install (h : l.Escorted carry) {t : TaskId} {i : FrameNo} (ht : carry t = none)
    (hi : i < l.size) (ho : l.occupant? i = none) (k : PageKey) (file : FileNo) (page : PageNo) :
    (l.install i k file page).Escorted
      (Function.update carry t (some ⟨.load, ⟨file, page, i, l.generation i + 1⟩⟩)) := by
  have hp : (l.install i k file page).occupant? i = some (.arriving file page) := by
    rw [occupant?_install hi, if_pos rfl]
  have hg : ((l.install i k file page).frame i).generation = l.generation i + 1 := by
    have hg := generation_install hi k file page i
    rwa [if_pos rfl] at hg
  have hs : (l.install i k file page).stayOf i (.arriving file page) =
      ⟨file, page, i, l.generation i + 1⟩ := by
    rw [stayOf, hg]
    rfl
  rw [← hs]
  refine h.start (fun j hj => frame_install_of_ne l hj k file page) ht (fun q hq => ?_) hp rfl
  rw [ho] at hq
  cases hq

/-- While a transfer is under way its frame holds the page of its stay, under that generation and
with the mark of its kind. -/
theorem occupantAt (h : l.Escorted carry) {t : TaskId} {kind : Transfer.Kind} {stay : Stay}
    (hx : carry t = some ⟨kind, stay⟩) : ∃ o,
      (l.frame stay.frame).occupantAt stay.generation = some o ∧ o.io = .busy kind ∧
        o.file = stay.file ∧ o.page = stay.page := by
  obtain ⟨o, ho, hio, hs⟩ := h.seated hx
  refine ⟨o, occupantAt_frame.2 ⟨?_, ho⟩, hio, ?_, ?_⟩
  · exact (congrArg Stay.generation hs).symm
  · exact (congrArg Stay.file hs).symm
  · exact (congrArg Stay.page hs).symm

theorem settle (h : l.Escorted carry) {t : TaskId} {x : Transfer} (hx : carry t = some x)
    (labels : Labels) (ok : Bool) :
    (l.settle labels x ok).Escorted (Function.update carry t none) := by
  obtain ⟨kind, stay⟩ := x
  obtain ⟨o, ho, hio, -⟩ := h.occupantAt hx
  have hi := lt_size_of_occupant? (occupantAt_frame.1 ho).2
  have put {p : Occupant} (hp : p.io = .idle) :
      (l.setOccupant stay.frame p).Escorted (Function.update carry t none) := by
    refine h.finish (fun j hj => frame_setOccupant_of_ne l hj p) hx rfl fun q hq => ?_
    rw [occupant?_setOccupant hi, if_pos rfl] at hq
    exact Option.some.inj hq ▸ hp
  cases ok with
  | true =>
    rw [settle_succeeded ho hio]
    exact put rfl
  | false =>
    cases kind with
    | load =>
      rw [settle_load_failed ho hio]
      refine h.finish (fun j hj => frame_vacate_of_ne l hj _) hx rfl fun q hq => ?_
      rw [occupant?_vacate hi, if_pos rfl] at hq
      cases hq
    | writeBack =>
      rw [settle_writeBack_failed ho hio]
      exact put rfl

end Escorted

end Ledger

end SecondChance
