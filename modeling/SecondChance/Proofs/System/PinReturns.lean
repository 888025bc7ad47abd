import SecondChance.Proofs.System.FileBacking
import SecondChance.Proofs.System.Departures
import SecondChance.Proofs.System.Pins
import SecondChance.Proofs.System.SharedFiles

/-!
Pins that are given back by page.

Whoever detaches a handle keeps its pin, and gives it back by the page later. As long as only such
pins are given back, and each of them once, this does no harm: a pin that has been kept holds its
page in the frame, so the one that is given back is of the same stay, and the account of pins is
what it is where each handle is given back by itself.

The exception is a stay that ended because its load was lost. Its pins are gone with it, and if one
of them is given back nevertheless when the page is in a frame again, it is somebody else's. So
these must not be given back, and the run at the end shows what happens if one is.
-/

namespace SecondChance

/-- What is still to be kept in mind of a history, the handles struck out that were detached and
whose pins have been given back by page since. Whoever takes a pin from a page gives back one that
was kept, of the same page, and it is not one of a load that is lost. To give back something by page
and do nothing thereby is always allowed. -/
inductive History.Outstanding : History → List Mark → Prop
  | start : Outstanding [] []
  | giveBack {h : History} {s : System} {x : Stay} {ks ks' : List Mark} {dirty : Bool}
      (left : Outstanding h (ks ++ .detached x :: ks'))
      (there : ¬ lostIn h.marks x.frame x.generation) :
      Outstanding ((s, .unpin x.file x.page dirty) :: h) (ks ++ ks')
  | idle {h : History} {s : System} {file : FileNo} {page : PageNo} {dirty : Bool}
      {ks : List Mark} (left : Outstanding h ks)
      (nothing : (s.after (.unpin file page dirty)).pool = s.pool) :
      Outstanding ((s, .unpin file page dirty) :: h) ks
  | other {h : History} {s : System} {m : Move} {ks : List Mark} (left : Outstanding h ks)
      (kind : ¬ m.IsUnpin) : Outstanding ((s, m) :: h) (ks ++ s.marks m)

theorem lostIn_append {ks k : List Mark} {i : FrameNo} {g : Nat} :
    lostIn (ks ++ k) i g ↔ lostIn ks i g ∨ lostIn k i g := by
  simp [lostIn, or_and_right, exists_or]

theorem lostIn_strikeOut {ks ks' : List Mark} {x : Stay} :
    lostIn (ks ++ .detached x :: ks') = lostIn (ks ++ ks') := by
  ext i g
  rw [lostIn_append, lostIn_append]
  simp [lostIn, Mark.loses]

namespace History.Outstanding

variable {h : History} {ks : List Mark}

theorem of_no_unpin (none : ∀ x ∈ h, ¬ x.2.IsUnpin) : h.Outstanding h.marks := by
  induction h with
  | nil => exact .start
  | cons x h ih =>
    exact .other (ih fun y hy => none y (List.mem_cons_of_mem x hy)) (none x List.mem_cons_self)

theorem lostIn_eq (left : h.Outstanding ks) : lostIn ks = lostIn h.marks := by
  have unpinned {h : History} {s : System} {file : FileNo} {page : PageNo} {dirty : Bool} :
      lostIn (History.marks ((s, .unpin file page dirty) :: h)) = lostIn h.marks := by
    refine lostIn_of_quiet fun x hx => ?_
    obtain rfl := List.mem_singleton.1 hx
    trivial
  induction left with
  | start => rfl
  | giveBack _ _ ih => rw [unpinned, ← ih, lostIn_strikeOut]
  | idle _ _ ih => rw [unpinned, ih]
  | other _ _ ih =>
    ext i g
    rw [History.marks, lostIn_append, lostIn_append, ih]

end History.Outstanding

namespace System

variable {s s' : System} {ks ks' k : List Mark} {x : Stay} {m : Move}

/-- The stay has begun, and if its page is there, it is the one that the stay is of. -/
structure Suits (s : System) (x : Stay) : Prop where
  begun : x.generation ≤ s.pool.ledger.generation x.frame
  same {o : Occupant} (ho : (s.pool.ledger.frame x.frame).occupantAt x.generation = some o) :
    o.file = x.file ∧ o.page = x.page

theorem Act.suits (a : Act s k s') (hs : s.Regular) (h : s.Suits x) : s'.Suits x where
  begun := Nat.le_trans h.begun (a.generation_le x.frame)
  same ho' := by
    obtain ⟨o, ho, hf, hp⟩ := a.occupantAt_back hs h.begun ho'
    rw [hf, hp]
    exact h.same ho

theorem Acts.suits (a : Acts s k s') (hs : s.Regular) (h : s.Suits x) : s'.Suits x := by
  induction a with
  | done => exact h
  | more first _ ih => exact ih (first.regular hs) (first.suits hs h)

theorem Placed.suits (h : s.Placed) {j : HandleNo} {y : Handle}
    (hh : s.handles.find? j = some y) : s.Suits y.stay :=
  ⟨(h.lent hh).1, fun ho => (h.lent hh).2 _ ho⟩

theorem claims_strikeOut (s : System) (ks ks' : List Mark) (x : Stay) (i : FrameNo) (g : Nat) :
    s.claims (ks ++ .detached x :: ks') i g =
      s.claims (ks ++ ks') i g + if x.isAt i g then 1 else 0 := by
  rw [claims, claims, List.countP_append, List.countP_append, List.countP_cons]
  show _ + (_ + (_ + if x.isAt i g then 1 else 0)) = _
  omega

/-- All pins are accounted for by handles, pins kept and loads under way, and every kept pin is of a
stay that has begun and whose page, if it is still there, is the one it was kept for. -/
structure Balanced (s : System) (ks : List Mark) : Prop where
  accounted : s.pool.ledger.Accounted (s.claims ks) (lostIn ks)
  detached {x : Stay} (hx : .detached x ∈ ks) : s.Suits x

theorem Balanced.congr (h : s.Balanced ks) (handles : s'.handles = s.handles)
    (pool : s'.pool = s.pool) : s'.Balanced ks := by
  have same : s'.claims ks = s.claims ks := by
    ext i g
    rw [claims, claims, handles]
  constructor
  case accounted =>
    rw [same, pool]
    exact h.accounted
  case detached =>
    intro x hx
    obtain ⟨begun, same⟩ := h.detached hx
    rw [← pool] at begun same
    exact ⟨begun, same⟩

theorem handles_unpin (s : System) (file : FileNo) (page : PageNo) (dirty : Bool) :
    (s.after (.unpin file page dirty)).handles = s.handles := by
  simp only [after, unpin]
  split <;> rfl

/-- A pin that was kept is of a page that is still there, so it can be given back by the page. -/
theorem Balanced.giveBack (h : s.Balanced (ks ++ .detached x :: ks')) (hs : s.Regular)
    (there : ¬ lostIn (ks ++ .detached x :: ks') x.frame x.generation) (dirty : Bool) :
    (s.after (.unpin x.file x.page dirty)).Balanced (ks ++ ks') := by
  have claimed := s.claims_strikeOut ks ks' x
  have one : s.claims (ks ++ .detached x :: ks') x.frame x.generation =
      s.claims (ks ++ ks') x.frame x.generation + 1 := by
    rw [claimed, if_pos (Stay.isAt_iff.2 ⟨rfl, rfl⟩)]
  -- Only a lost load takes a page away from somebody who has a claim on it.
  obtain ⟨o, hat⟩ : ∃ o, (s.pool.ledger.frame x.frame).occupantAt x.generation = some o := by
    refine Option.ne_none_iff_exists'.1 fun gone => there (h.accounted.gone ?_ gone)
    omega
  obtain ⟨hg, ho⟩ := Ledger.occupantAt_frame.1 hat
  have pinned := h.accounted.pins ho
  rw [hg, one] at pinned
  have found := hs.consistent.find?_key ho
  obtain ⟨hf, hp⟩ := (h.detached (List.mem_append_right ks List.mem_cons_self)).same hat
  rw [Occupant.key, hf, hp] at found
  have taken := Ledger.unpinPage_of_pinned found ho (by omega) dirty
  have after : s.after (.unpin x.file x.page dirty) =
      s.setLedger (s.pool.ledger.setOccupant x.frame (o.returned dirty)) := by
    simp only [System.after, System.unpin, taken]
  rw [after]
  constructor
  case accounted =>
    rw [← lostIn_strikeOut]
    refine h.accounted.put ho (fun j g hne => ?_) ?_
    · rw [claimed, if_neg, Nat.add_zero]
      · rfl
      · rwa [Stay.isAt_iff, ← hg]
    · show o.pins - 1 = s.claims (ks ++ ks') x.frame _ + o.loads
      rw [hg]
      omega
  case detached =>
    intro y hy
    have act : s.Act [.unpinned] _ := .unpin taken
    refine act.suits hs (h.detached ?_)
    exact (List.sublist_cons_self ..).append_left ks |>.subset hy

theorem Balanced.move (h : s.Balanced ks) (hs : s.Regular) (hpl : s.Placed)
    (possible : s.Permits m) (kind : ¬ m.IsUnpin) : (s.after m).Balanced (ks ++ s.marks m) := by
  have acts := acts_after hs.orderly hs.consistent.size_pos possible
  constructor
  case accounted =>
    have otherwise : ∀ x ∈ s.marks m, x ≠ .unpinned := by
      rintro x hx rfl
      exact kind (Move.isUnpin_of_mark hx)
    refine (acts.preserve (P := fun ks s => s.Regular ∧
      s.pool.ledger.Accounted (s.claims ks) (lostIn ks)) ?_ otherwise ⟨hs, h.accounted⟩).2
    exact fun h hk a => ⟨a.regular h.1, a.accounted h.1 hk h.2⟩
  case detached =>
    intro x hx
    rcases List.mem_append.1 hx with hx | hx
    · exact acts.suits hs (h.detached hx)
    · obtain ⟨j, rfl⟩ := tells_of_mem hx
      obtain ⟨⟨y, hy⟩, -⟩ := possible
      simp only [marks, hy, Option.elim_some, List.mem_singleton, Mark.detached.injEq] at hx
      subst hx
      exact acts.suits hs (hpl.suits hy)

end System

/-- As long as only pins are given back by page that have been kept, all pins are accounted for. -/
theorem ReachesShared.balanced {allowed : Move → Prop} {n : Nat} (hn : 0 < n) {c : Catalog}
    (hd : c.Distinct) {h : History} {s : System} (run : ReachesShared allowed (.new n c) h s)
    {ks : List Mark} (left : h.Outstanding ks) : s.Balanced ks := by
  induction run generalizing ks with
  | start =>
    cases left
    exact ⟨System.accounted_new n c, nofun⟩
  | @move h s m run possible _ ih =>
    have hs := run.regular hn
    cases left with
    | giveBack left there =>
      refine (ih left).giveBack hs ?_ _
      rwa [left.lostIn_eq]
    | idle left nothing => exact (ih left).congr (s.handles_unpin ..) nothing
    | other left kind => exact (ih left).move hs (run.placed hn hd) possible kind
  | others _ _ ih => exact (ih left).congr rfl rfl

/-- In every state of every run in which only such pins are given back by page as were kept when a
handle was detached, and not those of lost loads, a page has as many pins as there are handles of
its stay, together with those that were kept and are still to be given back, and one more while it
is being loaded. So whoever has a handle finds its page in its frame and pinned, unless the load has
been lost, and no move takes it away, unless its load is lost. -/
theorem returned_pins_spare_borrowers {n : Nat} (hn : 0 < n) {c : Catalog} (hd : c.Distinct)
    {h : History} {s : System} (run : ReachesShared (fun _ => True) (.new n c) h s)
    {ks : List Mark} (left : h.Outstanding ks) :
    (∀ i o, s.pool.ledger.occupant? i = some o →
      o.pins = s.handles.tally (·.stay.isAt i (s.pool.ledger.generation i)) +
        ks.countP (·.detaches i (s.pool.ledger.generation i)) +
        if o.io = .busy .load then 1 else 0) ∧
    ∀ k x, s.handles.find? k = some x →
      ¬ lostIn h.marks x.stay.frame x.stay.generation →
      ∃ o, (s.pool.ledger.frame x.stay.frame).occupantAt x.stay.generation = some o ∧
        o.file = x.stay.file ∧ o.page = x.stay.page ∧ o.pins ≠ 0 ∧
        ∀ m, s.Permits m →
          (∃ o', ((s.after m).pool.ledger.frame x.stay.frame).occupantAt x.stay.generation =
            some o' ∧ o'.file = o.file ∧ o'.page = o.page) ∨
          (o.io = .busy .load ∧ s.LosesLoad x.stay m) := by
  have balanced := run.balanced hn hd left
  refine ⟨fun i o ho => balanced.accounted.pins ho, fun k x hk there => ?_⟩
  obtain ⟨o, hat⟩ :
      ∃ o, (s.pool.ledger.frame x.stay.frame).occupantAt x.stay.generation = some o := by
    refine Option.ne_none_iff_exists'.1 fun gone => there ?_
    rw [← left.lostIn_eq]
    exact (System.occupantAt_eq_none_iff_lost balanced.accounted hk).1 gone
  have pinned := System.pins_ne_zero balanced.accounted hk hat
  obtain ⟨hf, hp⟩ := ((run.placed hn hd).suits hk).same hat
  refine ⟨o, hat, hf, hp, pinned, fun m possible => ?_⟩
  obtain ⟨hg, ho⟩ := Ledger.occupantAt_frame.1 hat
  rcases System.fares (run.regular hn) possible ho with
    ⟨o', ho', hf', hp', hg'⟩ | ⟨hio, lost⟩ | ⟨available, -⟩
  · exact .inl ⟨o', Ledger.occupantAt_frame.2 ⟨hg'.trans hg, ho'⟩, hf', hp'⟩
  · have stay : s.pool.ledger.stayOf x.stay.frame o = x.stay := by
      rw [Ledger.stayOf, hf, hp]
      exact congrArg (Stay.mk _ _ _) hg
    rw [stay] at lost
    exact .inr ⟨hio, lost⟩
  · exact (pinned (Occupant.standing_eq_available.1 available).1).elim

/-- Two have a page, and one of them keeps the pin. -/
def smallKept : List Move :=
  [.begin 0 (.allocate 0 0), .resume 0 none, .resume 0 none, .resume 0 none,
    .begin 1 (.fetch 0 0 1), .resume 1 none, .detach 0]

/-- When the pin that was kept is given back by page, the other still has the page. -/
theorem returned_pins_spare_borrowers_small : ∃ h s, Reaches (fun _ => True) .small h s ∧
    s.handles.find? 1 = some ⟨⟨0, 0, 0, 1⟩, false⟩ ∧
    ∃ o, s.pool.ledger.occupant? 0 = some o ∧ o.pins = 1 := by
  have run : Reaches (fun _ => True) .small
      (System.small.play (smallKept ++ [.unpin 0 0 false])).1
      (System.small.play (smallKept ++ [.unpin 0 0 false])).2 := by
    refine .play ⟨⟨rfl, Nat.zero_lt_one, rfl, nofun⟩, rfl, rfl, rfl,
      ⟨rfl, Nat.zero_lt_one, rfl, nofun⟩, rfl, ⟨⟨_, rfl⟩, nofun⟩, Nat.zero_lt_one, trivial⟩
      fun _ _ => trivial
  have kept : (System.small.play smallKept).1.Outstanding
      ([.allocating 0 (some 0)] ++ .detached ⟨0, 0, 0, 1⟩ :: []) := by
    refine .of_no_unpin ?_
    simp [System.play, smallKept, Move.IsUnpin]
  have there : ¬ lostIn (System.small.play smallKept).1.marks 0 1 := by
    rw [← kept.lostIn_eq]
    simp [lostIn, Mark.loses]
  obtain ⟨pins, -⟩ := returned_pins_spare_borrowers Nat.zero_lt_one distinct_small run.shared
    (.giveBack kept there)
  exact ⟨_, _, run, rfl, _, rfl, (pins 0 _ rfl).trans rfl⟩

/-- Somebody gets a page while it is being loaded, and keeps the pin. The load is given up, and the
page is loaded again for somebody else. -/
def smallLostLoan : List Move :=
  [.begin 0 (.allocate 0 0), .resume 0 none, .resume 0 none, .begin 1 (.fetch 0 0 1),
    .resume 1 none, .detach 1, .cancel 0, .begin 2 (.fetch 0 0 2), .resume 2 none, .resume 2 none]

/-- When the pin that was kept is given back by page, once and by the one who has kept it, it is the
pin of the new borrower that goes, and the page can be taken away. -/
theorem borrower_loses_pin :
    Reaches (fun _ => True) .small (System.small.play (smallLostLoan ++ [.unpin 0 0 false])).1
      (System.small.play (smallLostLoan ++ [.unpin 0 0 false])).2 ∧
    (System.small.play (smallLostLoan ++ [.unpin 0 0 false])).2.handles.find? 2 =
      some ⟨⟨0, 0, 0, 2⟩, false⟩ ∧
    (System.small.play (smallLostLoan ++ [.unpin 0 0 false])).2.pool.ledger.generation 0 = 2 ∧
    (System.small.play (smallLostLoan ++ [.unpin 0 0 false])).2.pool.ledger.occupant? 0 =
      some ⟨0, 0, 0, true, false, .idle⟩ ∧
    (System.small.play (smallLostLoan ++ [.unpin 0 0 false, .begin 3 (.dispose 0 0),
      .resume 3 none])).2.pool.ledger.occupant? 0 = none := by
  refine ⟨.play ⟨⟨rfl, Nat.zero_lt_one, rfl, nofun⟩, rfl, rfl,
    ⟨rfl, Nat.zero_lt_one, rfl, by decide⟩, rfl, ⟨⟨_, rfl⟩, by decide⟩, ⟨_, rfl, nofun⟩,
    ⟨rfl, Nat.zero_lt_one, rfl, nofun⟩, rfl, rfl, Nat.zero_lt_one, trivial⟩ fun _ _ => trivial,
    rfl, rfl, rfl, rfl⟩

end SecondChance
