import SecondChance.Proofs.Ledger.Pins
import SecondChance.Proofs.System.Refusals
import SecondChance.Proofs.Tally

/-!
Every pin has its owner.

As long as nobody gives back pins by page, each pin of a page belongs to a handle of this stay, to a
handle of this stay that was detached, or to the load that is bringing the page. No failure and no
task that is given up changes that. So whoever has a handle can give it back, and finds the page
gone exactly if the load that was to bring it has failed or was given up.
-/

namespace SecondChance

def Stay.isAt (x : Stay) (i : FrameNo) (g : Nat) : Bool := x.frame = i ∧ x.generation = g

namespace Mark

/-- A handle of the stay in frame `i` under generation `g` has been detached. -/
def detaches (i : FrameNo) (g : Nat) : Mark → Bool
  | .detached stay => stay.isAt i g
  | _ => false

/-- The load of the stay in frame `i` under generation `g` has failed or been given up. -/
def loses (i : FrameNo) (g : Nat) : Mark → Bool
  | .lost stay => stay.isAt i g
  | _ => false

def IsQuiet : Mark → Prop
  | .detached _ | .lost _ => False
  | _ => True

end Mark

/-- Whether the load of a stay is among those remembered as lost. -/
def lostIn (ks : List Mark) (i : FrameNo) (g : Nat) : Prop := ∃ k ∈ ks, k.loses i g = true

theorem Stay.isAt_iff {x : Stay} {i : FrameNo} {g : Nat} :
    x.isAt i g = true ↔ x.frame = i ∧ x.generation = g := decide_eq_true_iff

theorem lostIn_of_quiet {ks k : List Mark} (hk : ∀ x ∈ k, x.IsQuiet) :
    lostIn (ks ++ k) = lostIn ks := by
  ext i g
  constructor
  · rintro ⟨x, hx, hl⟩
    rcases List.mem_append.1 hx with hx | hx
    · exact ⟨x, hx, hl⟩
    · have hq := hk x hx
      cases x with
      | lost => exact hq.elim
      | _ => cases hl
  · rintro ⟨x, hx, hl⟩
    exact ⟨x, List.mem_append_left k hx, hl⟩

theorem lostIn_lost {ks : List Mark} {stay : Stay} {i : FrameNo} {g : Nat} :
    lostIn (ks ++ [.lost stay]) i g ↔
      lostIn ks i g ∨ (stay.frame = i ∧ stay.generation = g) := by
  rw [← Stay.isAt_iff]
  simp [lostIn, or_and_right, exists_or, Mark.loses]

theorem lostIn_detached (ks : List Mark) (stay : Stay) :
    lostIn (ks ++ [.detached stay]) = lostIn ks := by
  ext i g
  simp [lostIn, or_and_right, exists_or, Mark.loses]

namespace System

/-- How many handles of a stay there are, together with those that have been detached. -/
def claims (s : System) (ks : List Mark) (i : FrameNo) (g : Nat) : Nat :=
  s.handles.tally (·.stay.isAt i g) + ks.countP (·.detaches i g)

variable {s s' : System} {ks k : List Mark}

theorem claims_of_quiet (hh : s'.handles = s.handles) (hk : ∀ x ∈ k, x.IsQuiet) :
    s'.claims (ks ++ k) = s.claims ks := by
  ext i g
  have hz : k.countP (·.detaches i g) = 0 := by
    refine List.countP_eq_zero.2 fun x hx hd => ?_
    have hq := hk x hx
    cases x with
    | detached => exact hq.elim
    | _ => cases hd
  rw [claims, claims, hh, List.countP_append, hz, Nat.add_zero]

theorem accounted_of_quiet (hk : ∀ x ∈ k, x.IsQuiet) (hh : s'.handles = s.handles)
    (h : s'.pool.ledger.Accounted (s.claims ks) (lostIn ks)) :
    s'.pool.ledger.Accounted (s'.claims (ks ++ k)) (lostIn (ks ++ k)) := by
  rw [claims_of_quiet hh hk, lostIn_of_quiet hk]
  exact h

theorem claims_lendTo {h : HandleNo} (hh : s.handles.find? h = none) (stay : Stay) (i : FrameNo)
    (g : Nat) : (s.lendTo h stay).claims ks i g =
      s.claims ks i g + if stay.isAt i g then 1 else 0 := by
  rw [claims, claims, lendTo, Table.tally_insert _ _ hh]
  exact Nat.add_right_comm ..

theorem claims_detach {h : HandleNo} {x : Handle} (hh : s.handles.find? h = some x) (i : FrameNo)
    (g : Nat) : (s.detach h).claims ks i g + (if x.stay.isAt i g then 1 else 0) =
      s.claims ks i g := by
  rw [claims, claims, detach, ← Table.tally_erase s.handles _ hh]
  exact Nat.add_right_comm ..

theorem claims_detached {h : HandleNo} {x : Handle} (hh : s.handles.find? h = some x) :
    (s.detach h).claims (ks ++ [.detached x.stay]) = s.claims ks := by
  ext i g
  rw [← claims_detach hh, claims, List.countP_append, List.countP_singleton, claims]
  show _ + (_ + if x.stay.isAt i g then 1 else 0) = _
  omega

theorem claims_lost (s : System) (ks : List Mark) (stay : Stay) :
    s.claims (ks ++ [.lost stay]) = s.claims ks := by
  ext i g
  rw [claims, claims, List.countP_append]
  rfl

theorem claims_markDirty (s : System) (ks : List Mark) (h : HandleNo) :
    (s.markDirty h).claims ks = s.claims ks := by
  ext i g
  rw [claims, claims, markDirty, Table.tally_modify]
  exact fun _ => rfl

theorem claims_ne_zero {h : HandleNo} {x : Handle} (hh : s.handles.find? h = some x)
    (ks : List Mark) : s.claims ks x.stay.frame x.stay.generation ≠ 0 := by
  have hp := Table.tally_pos s.handles (fun y => y.stay.isAt x.stay.frame x.stay.generation) hh
    (Stay.isAt_iff.2 ⟨rfl, rfl⟩)
  rw [claims]
  omega

theorem accounted_settle_writeBack (hs : s.Regular)
    (h : s.pool.ledger.Accounted (s.claims ks) (lostIn ks)) {t : TaskId} {stay : Stay}
    (hx : s.transferOf t = some ⟨.writeBack, stay⟩) (ok : Bool) :
    (s.pool.ledger.settle s.labels ⟨.writeBack, stay⟩ ok).Accounted (s.claims ks) (lostIn ks) := by
  obtain ⟨o, ho, -, ho', hio⟩ := hs.seat hx
  have hl : o.loads = 0 := Occupant.loads_eq_zero (by rw [hio]; nofun)
  cases ok with
  | true =>
    rw [Ledger.settle_succeeded ho hio]
    exact h.setOccupant ho' rfl hl.symm
  | false =>
    rw [Ledger.settle_writeBack_failed ho hio]
    exact h.setOccupant ho' rfl hl.symm

theorem accounted_lend {hn : HandleNo} (stay : Stay) {o q : Occupant}
    (hh : s.handles.find? hn = none) (h : s.pool.ledger.Accounted (s.claims ks) (lostIn ks))
    (ho : s.pool.ledger.occupant? stay.frame = some o)
    (hg : s.pool.ledger.generation stay.frame = stay.generation)
    (hq : q.pins + o.loads = o.pins + q.loads + 1) :
    (s.pool.ledger.setOccupant stay.frame q).Accounted ((s.lendTo hn stay).claims ks)
      (lostIn ks) := by
  refine h.put ho (fun j g hne => ?_) ?_
  · rw [claims_lendTo hh, if_neg, Nat.add_zero]
    rwa [Stay.isAt_iff, ← hg]
  · have hp := h.pins ho
    rw [claims_lendTo hh, if_pos (Stay.isAt_iff.2 ⟨rfl, hg.symm⟩)]
    omega

theorem accounted_new (n : Nat) (c : Catalog) :
    (System.new n c).pool.ledger.Accounted ((System.new n c).claims []) (lostIn []) := by
  have hl : lostIn [] = fun _ _ => False := by
    ext i g
    simp [lostIn]
  rw [hl]
  exact .new n

/-- Every act keeps pins and claims in step. -/
theorem Act.accounted (a : Act s k s') (hs : s.Regular) (hk : ∀ x ∈ k, x ≠ .unpinned)
    (h : s.pool.ledger.Accounted (s.claims ks) (lostIn ks)) :
    s'.pool.ledger.Accounted (s'.claims (ks ++ k)) (lostIn (ks ++ k)) := by
  have quiet : ∀ x ∈ ([] : List Mark), x.IsQuiet := nofun
  cases a with
  | ease he => exact accounted_of_quiet quiet rfl (h.eased he)
  | expel ht hk ho hs =>
    refine accounted_of_quiet ?_ rfl (h.vacate ho hs _)
    simp [Mark.IsQuiet]
  | latch | turn | stop | fill | read | write | delete | sync | borrow | queue | quit =>
    exact accounted_of_quiet quiet rfl h
  | @start t task =>
    refine accounted_of_quiet ?_ rfl h
    cases task <;> simp [Task.opening, Mark.IsQuiet]
  | allocate | edit =>
    refine accounted_of_quiet ?_ rfl h
    simp [Mark.IsQuiet]
  | @hit t file page hn w look i o ht _ ho =>
    rw [List.append_nil]
    refine accounted_lend ⟨file, page, i, s.pool.ledger.generation i⟩
      (hs.orderly.unfilled ht rfl) h ho rfl ?_
    show o.pins + 1 + o.loads = o.pins + o.loads + 1
    omega
  | install ht hk hi ho => exact accounted_of_quiet quiet rfl (h.install hi ho _ _ _)
  | claim ht hp ho hio =>
    have hl : ∀ o : Occupant, o.claimed.loads = 0 := fun _ => rfl
    refine accounted_of_quiet quiet rfl (h.setOccupant ho rfl ?_)
    rw [hl, Occupant.loads_eq_zero]
    rw [hio]
    nofun
  | @loaded t file page hn w stay fault files content ht hr =>
    obtain ⟨o, hat, hg, ho, hio⟩ := hs.seat (transferOf_eq ht)
    have hk' : ∀ x ∈ (if Fault.cuts fault then [Mark.cutShort stay] else []), x.IsQuiet := by
      split <;> simp [Mark.IsQuiet]
    refine accounted_of_quiet (s := s.lendTo hn stay) hk' rfl ?_
    show (s.pool.ledger.settle s.labels ⟨.load, stay⟩ true).Accounted _ _
    rw [Ledger.settle_succeeded hat hio]
    refine accounted_lend stay (hs.orderly.unfilled ht rfl) h ho hg ?_
    rw [Occupant.loads_eq_one hio, Occupant.loads_eq_zero]
    nofun
  | @lost t task stay ht hx =>
    obtain ⟨o, hat, hg, ho, hio⟩ := hs.seat ((transferOf_eq ht).trans hx)
    show (s.pool.ledger.settle s.labels ⟨.load, stay⟩ false).Accounted
      (s.claims (ks ++ [.lost stay])) _
    rw [Ledger.settle_load_failed hat hio, claims_lost]
    refine h.leave ho _ (fun _ => ?_) (fun i g hl => ?_) (fun i g hl => ?_)
    · exact lostIn_lost.2 (.inr ⟨rfl, hg.symm⟩)
    · exact lostIn_lost.2 (.inl hl)
    · rw [hg]
      exact lostIn_lost.1 hl
  | wrote ht hx =>
    exact accounted_of_quiet quiet rfl
      (accounted_settle_writeBack hs h ((transferOf_eq ht).trans hx) true)
  | unwritten ht hx =>
    exact accounted_of_quiet quiet rfl
      (accounted_settle_writeBack hs h ((transferOf_eq ht).trans hx) false)
  | @enter t hn stay purpose =>
    cases purpose with
    | read => exact accounted_of_quiet quiet rfl h
    | write =>
      refine accounted_of_quiet (s := s.markDirty hn) quiet rfl ?_
      rw [claims_markDirty]
      exact h
  | @giveBack hn x l r hh hu hr =>
    rw [List.append_nil]
    have hd (j : FrameNo) (g : Nat) (hne : ¬ (x.stay.frame = j ∧ x.stay.generation = g)) :
        (s.detach hn).claims ks j g = s.claims ks j g := by
      rw [← claims_detach hh, if_neg (mt Stay.isAt_iff.1 hne)]
      rfl
    have hd' : (s.detach hn).claims ks x.stay.frame x.stay.generation + 1 =
        s.claims ks x.stay.frame x.stay.generation := by
      rw [← claims_detach hh, if_pos (Stay.isAt_iff.2 ⟨rfl, rfl⟩)]
    cases Ledger.unpinStay_cases hr with
    | stale hn' =>
      refine h.forget hn' hd ?_
      show (s.detach hn).claims ks _ _ ≤ _
      omega
    | unpinned hat hz =>
      obtain ⟨hg, ho⟩ := Ledger.occupantAt_frame.1 hat
      have hp := h.pins ho
      rw [hg] at hp
      omega
    | @ok o hat hp =>
      obtain ⟨hg, ho⟩ := Ledger.occupantAt_frame.1 hat
      have hp := h.pins ho
      rw [← hg] at hd hd'
      refine h.put ho hd ?_
      show o.pins - 1 = (s.detach hn).claims ks _ _ + o.loads
      omega
  | @detach hn x hh hu =>
    rw [claims_detached hh, lostIn_detached]
    exact h
  | markDirty hn =>
    rw [List.append_nil, claims_markDirty]
    exact h
  | unpin => exact (hk _ (List.mem_singleton_self _) rfl).elim

/-- A live handle is stale exactly if the load of its stay is lost. -/
theorem occupantAt_eq_none_iff_lost (h : s.pool.ledger.Accounted (s.claims ks) (lostIn ks))
    {hn : HandleNo} {x : Handle} (hh : s.handles.find? hn = some x) :
    (s.pool.ledger.frame x.stay.frame).occupantAt x.stay.generation = none ↔
      lostIn ks x.stay.frame x.stay.generation :=
  ⟨h.gone (claims_ne_zero hh ks), fun hl => (h.lost_gone hl).1⟩

theorem pins_ne_zero (h : s.pool.ledger.Accounted (s.claims ks) (lostIn ks)) {hn : HandleNo}
    {x : Handle} (hh : s.handles.find? hn = some x) {o : Occupant}
    (ho : (s.pool.ledger.frame x.stay.frame).occupantAt x.stay.generation = some o) :
    o.pins ≠ 0 := by
  obtain ⟨hg, ho⟩ := Ledger.occupantAt_frame.1 ho
  have hc := claims_ne_zero hh ks
  have hp := h.pins ho
  rw [hg] at hp
  omega

theorem unpinStay_snd (h : s.pool.ledger.Accounted (s.claims ks) (lostIn ks)) {hn : HandleNo}
    {x : Handle} (hh : s.handles.find? hn = some x) {l : Ledger} {r : Except PoolError Unit}
    (hr : s.pool.ledger.unpinStay s.labels x.stay x.dirty = (l, r)) :
    (r = .error (.stale x.stay.frame) ∧ lostIn ks x.stay.frame x.stay.generation) ∨
      (r = .ok () ∧ ¬ lostIn ks x.stay.frame x.stay.generation) := by
  have hl := occupantAt_eq_none_iff_lost h hh
  cases Ledger.unpinStay_cases hr with
  | stale hn => exact .inl ⟨rfl, hl.1 hn⟩
  | unpinned ho hz => exact (pins_ne_zero h hh ho hz).elim
  | ok ho =>
    refine .inr ⟨rfl, fun hlost => ?_⟩
    rw [hl.2 hlost] at ho
    cases ho

theorem refusal?_release (h : s.pool.ledger.Accounted (s.claims ks) (lostIn ks)) {hn : HandleNo}
    {x : Handle} (hh : s.handles.find? hn = some x) :
    s.refusal? (.release hn) = some (.stale x.stay.frame) ↔
      lostIn ks x.stay.frame x.stay.generation := by
  obtain ⟨l, r, hr⟩ : ∃ l r, s.pool.ledger.unpinStay s.labels x.stay x.dirty = (l, r) :=
    ⟨_, _, rfl⟩
  simp only [refusal?, release, hh, hr]
  rcases unpinStay_snd h hh hr with ⟨rfl, hl⟩ | ⟨rfl, hl⟩
  · exact ⟨fun _ => hl, fun _ => rfl⟩
  · refine ⟨fun he => ?_, fun hl' => (hl hl').elim⟩
    cases he

theorem refusal?_drop (h : s.pool.ledger.Accounted (s.claims ks) (lostIn ks)) {hn : HandleNo}
    {x : Handle} (hh : s.handles.find? hn = some x) :
    s.refusal? (.drop hn) = some (.stale x.stay.frame) ↔
      lostIn ks x.stay.frame x.stay.generation := by
  obtain ⟨l, r, hr⟩ : ∃ l r, s.pool.ledger.unpinStay s.labels x.stay x.dirty = (l, r) :=
    ⟨_, _, rfl⟩
  simp only [refusal?, drop, release, hh, hr]
  rcases unpinStay_snd h hh hr with ⟨rfl, hl⟩ | ⟨rfl, hl⟩
  · exact ⟨fun _ => hl, fun _ => rfl⟩
  · refine ⟨fun he => ?_, fun hl' => (hl hl').elim⟩
    cases he

theorem refusal?_access (h : s.pool.ledger.Accounted (s.claims ks) (lostIn ks)) (ho : s.Orderly)
    {t : TaskId} {hn : HandleNo} {stay : Stay} {purpose : Access} {stage : AccessStage}
    (ht : s.tasks.find? t = some (.access hn stay purpose stage)) (fault : Option Fault) :
    s.refusal? (.resume t fault) = some (.stale stay.frame) ↔
      stage = .latching ∧ lostIn ks stay.frame stay.generation := by
  obtain ⟨d, hh⟩ := ho.borrowed ht
  have hl := occupantAt_eq_none_iff_lost h hh
  simp only [refusal?, resume, ht]
  cases stage with
  | loading => simp [advance]
  | inside => cases purpose <;> simp [advance, use]
  | latching =>
    simp only [true_and, advance, enter]
    cases hat : (s.pool.ledger.frame stay.frame).occupantAt stay.generation with
    | none =>
      have he : s.pool.ledger.stillLoading stay = .error (.stale stay.frame) := by
        rw [Ledger.stillLoading, hat]
      simp only [he]
      exact ⟨fun _ => hl.1 hat, fun _ => trivial⟩
    | some o =>
      have he : s.pool.ledger.stillLoading stay = .ok (o.io = .busy .load) := by
        rw [Ledger.stillLoading, hat]
        exact if_neg (pins_ne_zero h hh hat)
      have hnot : ¬ lostIn ks stay.frame stay.generation := fun hlost => by
        rw [hl.2 hlost] at hat
        cases hat
      simp only [he]
      cases decide (o.io = .busy .load) <;> simp [hnot]

end System

def Move.IsUnpin : Move → Prop
  | .unpin .. => True
  | _ => False

theorem Move.isUnpin_of_mark {s : System} {m : Move} (h : .unpinned ∈ s.marks m) : m.IsUnpin := by
  obtain ⟨file, page, dirty, rfl⟩ := System.tells_of_mem h
  trivial

theorem Reaches.accounted {n : Nat} (hn : 0 < n) {c : Catalog} {h : History} {s : System}
    (run : Reaches (fun m => ¬ m.IsUnpin) (.new n c) h s) :
    s.pool.ledger.Accounted (s.claims h.marks) (lostIn h.marks) := by
  refine (run.preserve (P := fun ks s => s.pool.ledger.Accounted (s.claims ks) (lostIn ks))
    (fun x => x ≠ .unpinned) (.new hn c) (System.accounted_new n c) (fun s m hm k hk hu => ?_)
    fun hs h hk a => a.accounted hs hk h).2
  rw [hu] at hk
  exact hm (Move.isUnpin_of_mark hk)

/-- In every state of every run without `unpin` a page has as many pins as there are handles of its
stay, taken together with those that were detached, and one more exactly while it is being loaded.
So no move reports a pin that nobody holds, and giving back or using a handle reports that it is
stale if and only if the load of its stay has failed or was given up. -/
theorem pins_accounted {n : Nat} (hn : 0 < n) (c : Catalog) {h : History} {s : System}
    (run : Reaches (fun m => ¬ m.IsUnpin) (.new n c) h s) :
    (∀ i o, s.pool.ledger.occupant? i = some o →
      o.pins = s.handles.tally (·.stay.isAt i (s.pool.ledger.generation i)) +
        h.marks.countP (·.detaches i (s.pool.ledger.generation i)) +
        (if o.io = .busy .load then 1 else 0) ∧
      (o.io = .busy .load ↔ ∃ t, s.transferOf t = some ⟨.load, s.pool.ledger.stayOf i o⟩)) ∧
    (∀ m, s.Permits m → ¬ m.IsUnpin → ∀ file page i, s.refusal? m ≠ some (.notPinned file page i)) ∧
    (∀ k x, s.handles.find? k = some x →
      (s.refusal? (.release k) = some (.stale x.stay.frame) ↔
        lostIn h.marks x.stay.frame x.stay.generation) ∧
      (s.refusal? (.drop k) = some (.stale x.stay.frame) ↔
        lostIn h.marks x.stay.frame x.stay.generation)) ∧
    ∀ t k stay purpose stage fault, s.tasks.find? t = some (.access k stay purpose stage) →
      (s.refusal? (.resume t fault) = some (.stale stay.frame) ↔
        stage = .latching ∧ lostIn h.marks stay.frame stay.generation) := by
  have hs := run.regular hn
  have ha := run.accounted hn
  refine ⟨fun i o ho => ⟨ha.pins ho, fun hio => hs.escorted.carried ho hio, ?_⟩,
    fun m hp hm file page i hr => ?_, fun k x hh => ⟨?_, ?_⟩,
    fun t k stay purpose stage fault ht => ?_⟩
  · rintro ⟨t, hx⟩
    obtain ⟨o', ho', hio, -⟩ := hs.escorted.seated hx
    obtain rfl : o = o' := Option.some.inj (ho.symm.trans ho')
    exact hio
  · cases System.refuses_of_refusal? hs hp hr with
    | giveBack _ hh hu =>
      rcases System.unpinStay_snd ha hh hu with ⟨he, -⟩ | ⟨he, -⟩ <;> cases he
    | enter _ ht hl => cases Ledger.stillLoading_eq_error hl
    | unpin => exact hm trivial
  · exact System.refusal?_release ha hh
  · exact System.refusal?_drop ha hh
  · exact System.refusal?_access ha hs.orderly ht fault

/-- While a page is being loaded somebody else asks for it, and then the load is given up. -/
theorem pins_accounted_lost : ∃ h s, Reaches (fun m => ¬ m.IsUnpin) .small h s ∧
    s.handles.find? 1 = some ⟨⟨0, 0, 0, 1⟩, false⟩ ∧ lostIn h.marks 0 1 := by
  obtain ⟨h, run⟩ : ∃ h, Reaches (fun m => ¬ m.IsUnpin) .small h .smallLoading :=
    Reaches.smallLoading id id
  have begins : System.smallLoading.Permits (.begin 1 (.fetch 0 0 1)) := by
    refine ⟨rfl, Nat.zero_lt_one, rfl, fun e he => ?_⟩
    obtain rfl := List.mem_singleton.1 he
    nofun
  have run := ((run.move begins id).move (m := .resume 1 none) rfl id).move (m := .cancel 0)
    ⟨_, rfl, nofun⟩ id
  obtain ⟨-, -, stale, -⟩ := pins_accounted Nat.zero_lt_one _ run
  exact ⟨_, _, run, rfl, (stale 1 _ rfl).1.1 rfl⟩

end SecondChance
