import Mathlib.Logic.Function.Iterate
import SecondChance.Proofs.Scan.Service
import SecondChance.Proofs.Words

/-!
What the scan program does to the pages of its file.

Every time a page is visited, the word at its beginning is raised by one. So after so many passes
every page has been raised as often, unless one of the words has become too large for that. Then the
program stops at once, and it never stops early for any other reason.
-/

namespace SecondChance

namespace Page

variable {q : Page} {k : Nat}

def raise (q : Page) : Page := q.setWord 0 (q.word 0 + 1)

theorem wordLimit_eq : wordLimit = SecondChance.wordLimit := by decide

theorem word_raise (h : q.word 0 + 1 < SecondChance.wordLimit) : q.raise.word 0 = q.word 0 + 1 := by
  rw [raise, word_setWord (by decide), if_pos rfl, wordLimit_eq, Nat.mod_eq_of_lt h]

theorem word_iterate_raise (h : q.word 0 + k < SecondChance.wordLimit) :
    (raise^[k] q).word 0 = q.word 0 + k := by
  induction k generalizing q with
  | zero => rw [Function.iterate_zero_apply, Nat.add_zero]
  | succ k ih =>
    have once : q.raise.word 0 = q.word 0 + 1 := word_raise (by omega)
    rw [Function.iterate_succ_apply, ih (by omega), once]
    omega

theorem getElem?_raise (q : Page) {i : Nat} (hi : 8 ≤ i) : q.raise[i]? = q[i]? := by
  rw [← Vector.getElem?_toArray, raise, setWord, toArray_patch, Bytes.getElem?_patch,
    Bytes.length_ofWord, if_neg (by omega), Vector.getElem?_toArray]

theorem getElem?_iterate_raise (q : Page) {i : Nat} (hi : 8 ≤ i) : (raise^[k] q)[i]? = q[i]? := by
  induction k generalizing q with
  | zero => rw [Function.iterate_zero_apply]
  | succ k ih => rw [Function.iterate_succ_apply, ih, getElem?_raise q hi]

end Page

namespace Scan

/-- How a part of the program ends: well if `fits` holds, and then with a system for which `Q`
holds, and otherwise because a counter cannot grow any further. -/
inductive Comes (fits : Prop) (Q : System → Prop) : Step System → Prop
  | well {s : System} (hf : fits) (hQ : Q s) : Comes fits Q (.ok s)
  | overflow {files : Catalog} (hf : ¬ fits) : Comes fits Q (.error ⟨.abort .sumTooLarge, files⟩)

namespace Comes

variable {fits fits' : Prop} {Q R : System → Prop} {x : Step System} {f : System → Step System}

theorem congr (h : Comes fits Q x) (same : fits ↔ fits') (hQ : ∀ {s}, Q s → R s) :
    Comes fits' R x := by
  cases h with
  | well hf hs => exact .well (same.1 hf) (hQ hs)
  | overflow hf => exact .overflow fun hf' => hf (same.2 hf')

theorem bind (h : Comes fits Q x) (next : ∀ {s}, Q s → Comes fits' R (f s)) :
    Comes (fits ∧ fits') R (x >>= f) := by
  cases h with
  | well hf hs => exact (next hs).congr ⟨fun hf' => ⟨hf, hf'⟩, And.right⟩ id
  | overflow hf => exact .overflow fun both => hf both.1

end Comes

variable {s : System} {path place : String} {n j count : Nat} {pages : PageNo → Page}

def visited (j : Nat) (pages : PageNo → Page) (n : PageNo) : Page :=
  if n < j then (pages n).raise else pages n

theorem visited_succ (j : Nat) (pages : PageNo → Page) :
    visited (j + 1) pages =
      fun n => if n = j then (visited j pages j).raise else visited j pages n := by
  funext n
  unfold visited
  by_cases hn : n = j
  · subst hn
    rw [if_pos (Nat.lt_succ_self n), if_pos rfl, if_neg (Nat.lt_irrefl n)]
  · rw [if_neg hn]
    have same : n < j + 1 ↔ n < j := Nat.lt_succ_iff_lt_or_eq.trans (or_iff_left hn)
    rw [if_congr same rfl rfl]

/-! ### Growing -/

theorem exists_grow {k : Nat} (h : s.Offers path place none count pages)
    (zeros : ∀ n, count ≤ n → pages n = .zero) :
    ∃ s', grow 0 k s = .ok s' ∧ s'.Offers path place none (count + k) pages := by
  induction k generalizing s count with
  | zero => exact ⟨s, rfl, h⟩
  | succ k ih =>
    obtain ⟨s₁, i, done, lent⟩ := h.allocate (zeros count (Nat.le_refl _))
    obtain ⟨s₂, back, free⟩ := lent.giveBack
    obtain ⟨s₃, grown, offers⟩ := ih free fun n hn => zeros n (by omega)
    refine ⟨s₃, ?_, by rwa [Nat.add_right_comm] at offers⟩
    rw [grow, done]
    show (giveBack s₁ >>= grow 0 k) = .ok s₃
    rw [back]
    exact grown

/-! ### One page -/

theorem comes_increment (h : s.Offers path place (some n) count pages) (hn : n < count)
    {x : Handle} (hx : s.handles.find? 0 = some x) :
    Comes ((pages n).word 0 + 1 < wordLimit)
      (·.Offers path place (some n) count fun k => if k = n then (pages n).raise else pages k)
      (increment s x.stay) := by
  obtain ⟨y, hy, content⟩ := h.borrowed hn
  obtain rfl := Option.some.inj (hx.symm.trans hy)
  unfold increment
  dsimp only
  rw [content]
  split
  · next fits =>
    obtain ⟨s', done, offers⟩ := h.edit hn hx fun p => p.setWord 0 ((pages n).word 0 + 1)
    rw [done]
    exact .well fits offers
  · next full => exact .overflow full

theorem comes_bump (h : s.Offers path place none count pages) (hn : n < count) :
    Comes ((pages n).word 0 + 1 < wordLimit)
      (·.Offers path place none count fun k => if k = n then (pages n).raise else pages k)
      (bump 0 s n) := by
  obtain ⟨s₁, i, done, lent⟩ := h.fetch hn
  obtain ⟨x, hx, -⟩ := lent.borrowed hn
  have raised := comes_increment lent hn hx
  simp only [bump, done, hx]
  refine (raised.bind fun {s₂} offers => ?_).congr (Iff.of_eq (and_true _)) id
  obtain ⟨s', back, free⟩ := offers.giveBack
  rw [back]
  exact .well trivial free

/-! ### All pages -/

theorem comes_pass (h : s.Offers path place none count pages) (hj : j ≤ count) :
    Comes (∀ n < j, (pages n).word 0 + 1 < wordLimit)
      (·.Offers path place none count (visited j pages)) ((List.range j).foldlM (bump 0) s) := by
  induction j with
  | zero => exact .well (by rintro _ ⟨⟩) h
  | succ j ih =>
    have unvisited : visited j pages j = pages j := if_neg (Nat.lt_irrefl j)
    have before := ih (Nat.le_of_succ_le hj)
    rw [List.range_succ, List.foldlM_append]
    refine (before.bind fun {s'} offers => ?_).congr Nat.forall_lt_succ_right.symm id
    rw [List.foldlM_cons]
    show Comes _ _ (bump 0 s' j >>= fun s => pure s)
    rw [bind_pure, visited_succ, ← unvisited]
    exact comes_bump offers hj

/-- The words that can grow in one pass, and then in the passes that follow, can grow in all of
them. -/
theorem visited_fits {k : Nat} : ((∀ n < j, (pages n).word 0 + 1 < wordLimit) ∧
      ∀ n < j, (visited j pages n).word 0 + k < wordLimit) ↔
    ∀ n < j, (pages n).word 0 + (k + 1) < wordLimit := by
  have word {n : PageNo} (hn : n < j) (now : (pages n).word 0 + 1 < wordLimit) :
      (visited j pages n).word 0 = (pages n).word 0 + 1 := by
    rw [visited, if_pos hn, Page.word_raise now]
  constructor
  · rintro ⟨now, later⟩ n hn
    have rest := later n hn
    rw [word hn (now n hn)] at rest
    omega
  · intro all
    have now (n : PageNo) (hn : n < j) : (pages n).word 0 + 1 < wordLimit := by
      have := all n hn
      omega
    refine ⟨now, fun n hn => ?_⟩
    have := all n hn
    rw [word hn (now n hn)]
    omega

/-- In every pass each page is raised once, and the first page for which that is not possible ends
the program. -/
theorem comes_scan (h : s.Offers path place none count pages) (hj : j ≤ count) (passes : Nat) :
    Comes (∀ n < j, (pages n).word 0 + passes < wordLimit)
      (·.Offers path place none count fun n =>
        if n < j then Page.raise^[passes] (pages n) else pages n)
      (scan 0 j passes s) := by
  induction passes generalizing s pages with
  | zero =>
    refine .well (fun n _ => ?_) ?_
    · rw [Nat.add_zero, ← Page.wordLimit_eq]
      exact (pages n).word_lt 0
    · simpa only [Function.iterate_zero_apply, ite_self] using h
  | succ passes ih =>
    have again : (fun n => if n < j then Page.raise^[passes] (visited j pages n)
          else visited j pages n) =
        fun n => if n < j then Page.raise^[passes + 1] (pages n) else pages n := by
      funext n
      by_cases hn : n < j
      · rw [if_pos hn, if_pos hn, visited, if_pos hn, Function.iterate_succ_apply]
      · rw [if_neg hn, if_neg hn, visited, if_neg hn]
    rw [← again]
    exact ((comes_pass h hj).bind fun offers => ih offers).congr visited_fits id

end Scan

end SecondChance
