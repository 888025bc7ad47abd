import SecondChance.Proofs.System.Unsaved
import SecondChance.Proofs.Words

/-!
The changes of a page, and how many of them its file has.

A history tells which changes writers have made to a page, under which handles, and whether these
have been given back since. A page contains what it did in the beginning with all its changes made
to it, and its file has what it did in the beginning with the first of them, as many as had been
made when the file last had the content of the page. Each of the others is still due: its page has
not left the frame in which it was changed, and is dirty, or being written back, or in the hands of
the writer.
-/

namespace SecondChance

/-- A change that a writer has made to a page. -/
structure Change where
  edit : Page → Page
  handle : HandleNo
  /-- The handle has been given back since. -/
  returned : Bool

/-- What is known of a change when its handle has been looked for once more. -/
def Change.seenIn (s : System) (x : Change) : Change :=
  { x with returned := x.returned || (s.handles.find? x.handle).isNone }

theorem Change.returned_seenIn {s : System} {x : Change} {y : Handle} (hx : x.returned = false)
    (hy : s.handles.find? x.handle = some y) : (x.seenIn s).returned = false := by
  simp [seenIn, hx, hy]

namespace System

variable {s s' : System} {f : FileNo} {p : PageNo} {m : Move} {x : Change}

def writerOn (s : System) (f : FileNo) (p : PageNo) (t : TaskId) :
    Option (HandleNo × (Page → Page)) :=
  match s.tasks.find? t with
  | some (.access h stay (.write e) .inside) =>
    if stay.file = f ∧ stay.page = p then some (h, e) else none
  | _ => none

/-- The change that a move makes to a page. -/
def changeBy (s : System) (f : FileNo) (p : PageNo) : Move → Option Change
  | .edit t e => (s.writerOn f p t).map fun w => ⟨e, w.1, false⟩
  | .resume t _ => (s.writerOn f p t).map fun w => ⟨w.2, w.1, false⟩
  | _ => none

theorem writerOn_eq_some {t : TaskId} {h : HandleNo} {e : Page → Page} :
    s.writerOn f p t = some (h, e) ↔ ∃ stay : Stay, stay.file = f ∧ stay.page = p ∧
      s.tasks.find? t = some (.access h stay (.write e) .inside) := by
  constructor
  · intro hw
    unfold writerOn at hw
    split at hw
    · next h' stay e' ht =>
      split at hw
      · next hfp =>
        obtain ⟨rfl, rfl⟩ := Prod.mk.inj (Option.some.inj hw)
        exact ⟨stay, hfp.1, hfp.2, ht⟩
      · cases hw
    · cases hw
  · rintro ⟨stay, hf, hp, ht⟩
    simp only [writerOn, ht]
    exact if_pos ⟨hf, hp⟩

/-- A change is made by a writer who is inside, and apart from the page nothing changes that matters
for what is in the files. -/
theorem changeBy_eq_some (hx : s.changeBy f p m = some x) :
    x.returned = false ∧ (s.after m).pool.ledger = s.pool.ledger ∧
    (s.after m).handles = s.handles ∧ (s.after m).files = s.files ∧
    ∃ t stay e, s.tasks.find? t = some (.access x.handle stay (.write e) .inside) ∧
      stay.file = f ∧ stay.page = p ∧ s.marks m = [.edited stay x.edit] := by
  cases m with
  | edit t e =>
    obtain ⟨⟨h, e₀⟩, hw, rfl⟩ := Option.map_eq_some_iff.1 hx
    obtain ⟨stay, hf, hp, ht⟩ := writerOn_eq_some.1 hw
    simp only [after, edit, marks, ht]
    exact ⟨trivial, rfl, trivial, trivial, t, stay, e₀, ht, hf, hp, rfl⟩
  | resume t fault =>
    obtain ⟨⟨h, e⟩, hw, rfl⟩ := Option.map_eq_some_iff.1 hx
    obtain ⟨stay, hf, hp, ht⟩ := writerOn_eq_some.1 hw
    simp only [after, resume_fst ht, advance, use, turnTo, endTask, marks, ht]
    exact ⟨trivial, rfl, trivial, trivial, t, stay, e, ht, hf, hp, rfl⟩
  | _ => cases hx

theorem changeBy_eq_none (hx : s.changeBy f p m = none) {k : Mark} (hk : k ∈ s.marks m) :
    ¬ k.IsEditOf f p := by
  intro he
  cases k with
  | edited stay e =>
    obtain ⟨t, h, ⟨rfl, e₀, ht⟩ | ⟨fault, rfl, ht⟩⟩ := tells_of_mem hk
    · have hw := writerOn_eq_some.2 ⟨stay, he.1, he.2, ht⟩
      simp [changeBy, hw] at hx
    · have hw := writerOn_eq_some.2 ⟨stay, he.1, he.2, ht⟩
      simp [changeBy, hw] at hx
  | _ => exact he

end System

theorem Explained.of_unedited {f : FileNo} {p : PageNo} {k : List Mark} {a b : Option Page}
    (h : Explained f p k a b) (hno : ∀ x ∈ k, ¬ x.IsEditOf f p) : b = a ∨ a = none := by
  induction k generalizing a with
  | nil => exact .inl h
  | cons x k ih =>
    obtain ⟨c, hc, hrest⟩ := h
    have hx := hno x List.mem_cons_self
    have hstep : c = a ∨ a = none := by
      cases x with
      | edited => exact .inl (hc.trans (if_neg hx))
      | allocating => exact hc.imp_right fun ha => ha.2.2
      | _ => exact .inl hc
    rcases hstep with rfl | ha
    · exact ih hrest fun y hy => hno y (List.mem_cons_of_mem _ hy)
    · exact .inr ha

/-! ### What a history tells of a page -/

namespace History

section

variable (f : FileNo) (p : PageNo)

/-- The changes of a page so far, the oldest first. -/
def changes : History → System → List Change
  | [], _ => []
  | (s, m) :: h, s' => (changes h s ++ (s.changeBy f p m).toList).map (·.seenIn s')

def edits (h : History) (s : System) : List (Page → Page) := (h.changes f p s).map (·.edit)

/-- What a page contained in the beginning, or when its file first had it. -/
def origin : History → System → Option Page
  | [], s => s.files.page? f p
  | (s, _) :: h, s' => (origin h s).or (s'.files.page? f p)

/-- How many edits of a page there were when its file last had what the page contained. -/
def saved : History → System → Nat
  | [], _ => 0
  | (s, m) :: h, s' =>
    if s'.IsStored f p then (edits f p ((s, m) :: h) s').length else saved h s

end

variable {f : FileNo} {p : PageNo} {h : History} {s s' : System} {m : Move}

theorem edits_move : edits f p ((s, m) :: h) s' =
    h.edits f p s ++ (s.changeBy f p m).toList.map (·.edit) := by
  simp only [edits, changes, List.map_map, List.map_append]
  rfl

theorem edits_of_quiet (hm : s.changeBy f p m = none) :
    edits f p ((s, m) :: h) s' = h.edits f p s := by
  rw [edits_move, hm]
  exact List.append_nil _

theorem saved_of_stored (hs : s'.IsStored f p) :
    saved f p ((s, m) :: h) s' = (edits f p ((s, m) :: h) s').length := if_pos hs

theorem saved_of_not_stored (hs : ¬ s'.IsStored f p) : saved f p ((s, m) :: h) s' = h.saved f p s :=
  if_neg hs

theorem length_edits (h : History) (s : System) :
    (h.edits f p s).length = (h.changes f p s).length := List.length_map ..

theorem length_edits_mono (h : History) (s s' : System) (m : Move) :
    (h.edits f p s).length ≤ (edits f p ((s, m) :: h) s').length := by
  rw [edits_move, List.length_append]
  omega

theorem saved_le (h : History) (s : System) : h.saved f p s ≤ (h.edits f p s).length := by
  induction h generalizing s with
  | nil => exact Nat.zero_le _
  | cons x h ih =>
    obtain ⟨s₀, m⟩ := x
    by_cases hs : s.IsStored f p
    · exact Nat.le_of_eq (saved_of_stored hs)
    · have hle := ih s₀
      have hmono := length_edits_mono (f := f) (p := p) h s₀ s m
      rw [saved_of_not_stored hs]
      omega

theorem saved_mono (h : History) (s s' : System) (m : Move) :
    h.saved f p s ≤ saved f p ((s, m) :: h) s' := by
  by_cases hs : s'.IsStored f p
  · have hle := saved_le (f := f) (p := p) h s
    have hmono := length_edits_mono (f := f) (p := p) h s s' m
    rw [saved_of_stored hs]
    omega
  · exact Nat.le_of_eq (saved_of_not_stored hs).symm

theorem saved_edits_prefix (h : History) (s s' : System) (m : Move) :
    (h.edits f p s).take (h.saved f p s) <+:
      (edits f p ((s, m) :: h) s').take (saved f p ((s, m) :: h) s') := by
  have hle := saved_le (f := f) (p := p) h s
  rw [edits_move, ← List.take_append_of_le_length hle]
  exact List.take_prefix_take_left (saved_mono h s s' m)

theorem origin_move {q : Page} (ho : h.origin f p s = some q) :
    origin f p ((s, m) :: h) s' = some q := by
  rw [origin, ho]
  rfl

theorem origin_append {q : Page} (ho : h.origin f p s = some q) (h' : History) (s' : System) :
    origin f p (h' ++ (s, m) :: h) s' = some q := by
  induction h' generalizing s' with
  | nil => exact origin_move ho
  | cons x h' ih => exact origin_move (ih x.1)

theorem changes_move {i : Nat} {x : Change} (hx : (h.changes f p s)[i]? = some x) :
    (changes f p ((s, m) :: h) s')[i]? = some (x.seenIn s') := by
  obtain ⟨hi, -⟩ := List.getElem?_eq_some_iff.1 hx
  rw [changes, List.getElem?_map, List.getElem?_append_left hi, hx]
  rfl

theorem returned_of_unlent (hu : ∀ j, s.handles.find? j = none) {i : Nat} {x : Change}
    (hx : (h.changes f p s)[i]? = some x) : x.returned = true := by
  cases h with
  | nil => cases hx
  | cons a h =>
    rw [changes, List.getElem?_map, Option.map_eq_some_iff] at hx
    obtain ⟨y, -, rfl⟩ := hx
    simp [Change.seenIn, hu]

theorem pending_of_saved_le {i : Nat} {x : Change}
    (hx : (changes f p ((s, m) :: h) s')[i]? = some x) (hi : saved f p ((s, m) :: h) s' ≤ i) :
    ¬ s'.IsStored f p := by
  intro stored
  obtain ⟨hlt, -⟩ := List.getElem?_eq_some_iff.1 hx
  rw [saved_of_stored stored, length_edits] at hi
  omega

end History

/-- The page contains its origin with all its edits made, and its file has the origin with the first
of them made, as many as are saved. A page without an origin has no edits, and each change that is
not saved is of a stay that is unsaved, or of one whose writer still has the handle that will come
back dirty. -/
structure Traced (f : FileNo) (p : PageNo) (h : History) (s : System) : Prop where
  content : s.content f p = (h.origin f p s).map (·.changed (h.edits f p s))
  file : s.files.page? f p =
    (h.origin f p s).map (·.changed ((h.edits f p s).take (h.saved f p s)))
  unborn (ho : h.origin f p s = none) : h.edits f p s = []
  due {i : Nat} {x : Change} (hx : (h.changes f p s)[i]? = some x) (hi : h.saved f p s ≤ i) :
    ∃ stay : Stay, stay.file = f ∧ stay.page = p ∧
      (s.pool.ledger.Unsaved stay ∨ (x.returned = false ∧ s.Withholds stay x.handle))

namespace Traced

variable {f : FileNo} {p : PageNo} {h : History} {s s' : System} {m : Move} {ks : List Mark}

theorem new (n : Nat) (c : Catalog) : Traced f p [] (.new n c) where
  content := by
    rw [System.content_of_absent (Table.find?_empty _)]
    exact Option.map_id'.symm
  file := Option.map_id'.symm
  unborn _ := rfl
  due hx := nomatch hx

theorem file_of_content (hc : s'.content f p =
      (History.origin f p ((s, m) :: h) s').map (·.changed (History.edits f p ((s, m) :: h) s')))
    (hf : ¬ s'.IsStored f p → s'.files.page? f p = (History.origin f p ((s, m) :: h) s').map
      (·.changed ((History.edits f p ((s, m) :: h) s').take (h.saved f p s)))) :
    s'.files.page? f p = (History.origin f p ((s, m) :: h) s').map (·.changed
      ((History.edits f p ((s, m) :: h) s').take (History.saved f p ((s, m) :: h) s'))) := by
  by_cases stored : s'.IsStored f p
  · rw [History.saved_of_stored stored, List.take_length]
    exact stored.trans hc
  · rw [History.saved_of_not_stored stored]
    exact hf stored

theorem due_of_move (tr : Traced f p h s)
    (keep : ∀ stay : Stay, stay.file = f → stay.page = p →
      (s.pool.ledger.Unsaved stay → s'.pool.ledger.Unsaved stay) ∧
      ∀ j, s.Withholds stay j → s'.Withholds stay j ∨ s'.pool.ledger.Unsaved stay)
    {i : Nat} {y : Change} (hy : (h.changes f p s)[i]? = some y) (hi : h.saved f p s ≤ i) :
    ∃ stay : Stay, stay.file = f ∧ stay.page = p ∧ (s'.pool.ledger.Unsaved stay ∨
      ((y.seenIn s').returned = false ∧ s'.Withholds stay y.handle)) := by
  obtain ⟨stay, hsf, hsp, hdue⟩ := tr.due hy hi
  obtain ⟨unsaved, withheld⟩ := keep stay hsf hsp
  refine ⟨stay, hsf, hsp, ?_⟩
  rcases hdue with hu | ⟨hr, hw⟩
  · exact .inl (unsaved hu)
  · rcases withheld y.handle hw with hw' | hu
    · exact .inr ⟨Change.returned_seenIn hr hw'.1, hw'⟩
    · exact .inl hu

section Move

variable (tr : Traced f p h s) (hs : s.Sound ks) (hf : s.hasFile f) (hp : s.Permits m)
  (hm : m.IsFair)
include tr hs hf hp hm

theorem quiet (hc : s.changeBy f p m = none) : Traced f p ((s, m) :: h) (s.after m) := by
  have acts := System.acts_after hs.regular.orderly hs.regular.consistent.size_pos hp
  have fair : ∀ k ∈ s.marks m, k.IsFair := fun k hk => hm.mark hk
  have unedited : ∀ k ∈ s.marks m, ¬ k.IsEditOf f p := fun k hk => System.changeBy_eq_none hc hk
  have hedits : History.edits f p ((s, m) :: h) (s.after m) = h.edits f p s :=
    History.edits_of_quiet hc
  have kept := acts.kept_or_stored hs hf fair unedited
  have due {i : Nat} {x : Change}
      (hx : (History.changes f p ((s, m) :: h) (s.after m))[i]? = some x)
      (hi : History.saved f p ((s, m) :: h) (s.after m) ≤ i) : ∃ stay : Stay, stay.file = f ∧
        stay.page = p ∧ ((s.after m).pool.ledger.Unsaved stay ∨
          (x.returned = false ∧ (s.after m).Withholds stay x.handle)) := by
    have pending := History.pending_of_saved_le hx hi
    rw [History.saved_of_not_stored pending] at hi
    simp only [History.changes, hc, Option.toList_none, List.append_nil, List.getElem?_map,
      Option.map_eq_some_iff] at hx
    obtain ⟨y, hy, rfl⟩ := hx
    refine tr.due_of_move (fun stay hsf hsp => ?_) hy hi
    subst hsf hsp
    refine ⟨fun hu => ?_, fun j hw => ?_⟩
    · exact (acts.unsaved hs fair hf unedited hu).resolve_right pending
    · exact (acts.withholds hs fair hf unedited hw).imp_right fun hu => hu.resolve_right pending
  cases ho : h.origin f p s with
  | some q =>
    have horigin : History.origin f p ((s, m) :: h) (s.after m) = some q := History.origin_move ho
    have hcontent := tr.content
    have hfile := tr.file
    rw [ho] at hcontent hfile
    have same : (s.after m).content f p = s.content f p := by
      rcases (acts.content hs.regular fair hs.faithful hf).of_unedited unedited with he | hn
      · exact he
      · simp [hn] at hcontent
    have content' : (s.after m).content f p =
        (History.origin f p ((s, m) :: h) (s.after m)).map
          (·.changed (History.edits f p ((s, m) :: h) (s.after m))) := by
      rw [same, hcontent, horigin, hedits]
    refine ⟨content', file_of_content content' fun pending => ?_, fun hn => ?_, due⟩
    · rw [(kept.resolve_right pending).1, hfile, horigin, hedits]
    · cases hn.symm.trans horigin
  | none =>
    -- There is no page yet, or there has been none until now.
    have hnone := tr.unborn ho
    have hfile := tr.file
    have hcontent := tr.content
    rw [ho] at hfile hcontent
    have stored : (s.after m).IsStored f p := by
      rcases kept with ⟨hf', hc'⟩ | stored
      · exact (hf'.trans hfile).trans (hc'.trans hcontent).symm
      · exact stored
    have content' : (s.after m).content f p =
        (History.origin f p ((s, m) :: h) (s.after m)).map
          (·.changed (History.edits f p ((s, m) :: h) (s.after m))) := by
      rw [hedits, hnone, History.origin, ho, Option.none_or, ← stored]
      exact Option.map_id'.symm
    exact ⟨content', file_of_content content' fun pending => (pending stored).elim,
      fun _ => hedits.trans hnone, due⟩

theorem edited {x : Change} (hc : s.changeBy f p m = some x) :
    Traced f p ((s, m) :: h) (s.after m) := by
  obtain ⟨hr, hledger, hhandles, hfiles, t, stay, e, ht, hsf, hsp, hmarks⟩ :=
    System.changeBy_eq_some hc
  have hedits : History.edits f p ((s, m) :: h) (s.after m) = h.edits f p s ++ [x.edit] := by
    rw [History.edits_move, hc]
    rfl
  obtain ⟨o, hat, hio⟩ := hs.faithful.seated.inside ht
  have hhandle := hs.faithful.seated.writing ht
  obtain ⟨hof, hop⟩ := hs.faithful.seated.placed hhandle hat
  have shown : s.content f p = some (s.pool.buffer stay.frame) :=
    System.content_of_shown hs.regular (Ledger.shown_eq_some.2
      ⟨o, (Ledger.occupantAt_frame.1 hat).2, hio, hof.trans hsf, hop.trans hsp⟩)
  obtain ⟨q, ho⟩ : ∃ q, h.origin f p s = some q := by
    cases ho : h.origin f p s with
    | some q => exact ⟨q, rfl⟩
    | none => simp [tr.content, ho] at shown
  have horigin : History.origin f p ((s, m) :: h) (s.after m) = some q := History.origin_move ho
  have content' : (s.after m).content f p =
      (History.origin f p ((s, m) :: h) (s.after m)).map
        (·.changed (History.edits f p ((s, m) :: h) (s.after m))) := by
    have acts := System.acts_after hs.regular.orderly hs.regular.consistent.size_pos hp
    have explained := acts.content (f := f) (p := p) hs.regular (fun k hk => hm.mark hk)
      hs.faithful hf
    rw [hmarks, explained_singleton] at explained
    rw [horigin, hedits]
    refine (explained.trans (if_pos ⟨hsf, hsp⟩)).trans ?_
    rw [tr.content, ho]
    simp [Page.changed]
  refine ⟨content', file_of_content content' fun _ => ?_, fun hn => ?_, fun {i y} hy hi => ?_⟩
  · have hle := History.saved_le (f := f) (p := p) h s
    rw [hfiles, tr.file, ho, horigin, hedits, List.take_append_of_le_length hle]
  · cases hn.symm.trans horigin
  · rw [History.saved_of_not_stored (History.pending_of_saved_le hy hi)] at hi
    rw [History.changes, hc, List.getElem?_map, Option.map_eq_some_iff] at hy
    obtain ⟨z, hz, rfl⟩ := hy
    have hwith {j : HandleNo} {y : Stay} (hw : s.Withholds y j) : (s.after m).Withholds y j := by
      rw [System.Withholds, hledger, hhandles]
      exact hw
    rcases Nat.lt_or_ge i (h.changes f p s).length with hlt | hge
    · rw [List.getElem?_append_left hlt] at hz
      refine tr.due_of_move (fun y _ _ => ⟨fun hu => ?_, fun j hw => .inl (hwith hw)⟩) hz hi
      rwa [hledger]
    · -- The writer still has the page that has been changed just now.
      rw [List.getElem?_append_right hge] at hz
      obtain rfl := List.mem_singleton.1 (List.mem_of_getElem? hz)
      have hw := hwith ⟨hhandle, o, hat, hio⟩
      exact ⟨stay, hsf, hsp, .inr ⟨Change.returned_seenIn hr hw.1, hw⟩⟩

theorem move : Traced f p ((s, m) :: h) (s.after m) := by
  cases hc : s.changeBy f p m with
  | none => exact tr.quiet hs hf hp hm hc
  | some x => exact tr.edited hs hf hp hm hc

end Move

end Traced

theorem Reaches.hasFile {allowed : Move → Prop} {n : Nat} (hn : 0 < n) {c : Catalog} {s : System}
    {h : History} (run : Reaches allowed (.new n c) h s) (f : FileNo) :
    s.hasFile f ↔ f < c.files.size :=
  (run.preserve (P := fun _ s => s.hasFile f ↔ f < c.files.size) (fun _ => True) (.new hn c)
    Iff.rfl (fun _ _ _ _ _ => trivial) fun _ h _ a => (a.hasFile f).trans h).2

theorem Reaches.traced {n : Nat} (hn : 0 < n) {c : Catalog} (hd : c.Distinct) (ha : c.Apart)
    {h : History} {s : System} (run : Reaches Move.IsFair (.new n c) h s) {f : FileNo}
    (hf : f < c.files.size) (p : PageNo) : Traced f p h s := by
  induction run with
  | start => exact .new n c
  | move run possible kind ih =>
    exact ih.move (run.sound hn hd ha) ((run.hasFile hn f).2 hf) possible kind

end SecondChance
