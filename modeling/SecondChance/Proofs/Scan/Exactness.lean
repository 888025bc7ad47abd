import SecondChance.Proofs.Scan.Passes
import SecondChance.Proofs.Scan.Requests

/-!
What the scan program leaves behind.

Whatever is in its file and however many frames there are: the counter of each page is raised by
the number of passes, the pages that are missing are added, and nothing else changes. If a counter
is too large for that the program ends with an overflow.
-/

namespace SecondChance

/-! ### Bytes and pages -/

namespace Bytes

variable {bytes : Bytes} {q : Page} {n i count : Nat}

/-- The number in the first eight bytes of a page. Bytes that are missing count as zeros. -/
def counter (bytes : Bytes) (n : PageNo) : Nat :=
  toWord ((List.range 8).map fun i => bytes.getD (n * pageSize + i) 0)

theorem counter_eq (same : ∀ i < pageSize, bytes[n * pageSize + i]?.getD 0 = q[i]?.getD 0) :
    bytes.counter n = q.word 0 := by
  refine congrArg toWord (List.map_congr_left fun i hi => ?_)
  have inside : i < pageSize := Nat.lt_trans (List.mem_range.1 hi) (by decide)
  rw [Array.getD_eq_getD_getElem?, same i inside, Array.getD_eq_getD_getElem?, Nat.zero_mul,
    Nat.zero_add, Vector.getElem?_toArray]

theorem size_le_of_whole (whole : bytes.size = count * pageSize) (hn : count ≤ n) :
    bytes.size ≤ n * pageSize := by
  rw [whole]
  exact Nat.mul_le_mul_right pageSize hn

theorem page_of_le (whole : bytes.size = count * pageSize) (hn : count ≤ n) :
    bytes.page n = .zero := by
  have outside := size_le_of_whole whole hn
  have missing : ¬ n * pageSize + pageSize ≤ bytes.size := by
    have := Page.pageSize_pos
    omega
  rw [page, Page.slice?, dif_neg missing, Option.getD_none]

theorem counter_of_le (whole : bytes.size = count * pageSize) (hn : count ≤ n) :
    bytes.counter n = 0 := by
  have outside := size_le_of_whole whole hn
  have zeros : (List.range 8).map (fun i => bytes.getD (n * pageSize + i) 0) =
      (List.range 8).map fun _ => 0 := by
    refine List.map_congr_left fun i _ => ?_
    rw [Array.getD_eq_getD_getElem?, Array.getElem?_eq_none (by omega), Option.getD_none]
  rw [counter, zeros]
  rfl

theorem getElem?_page (whole : bytes.size = count * pageSize) (n : Nat) (hi : i < pageSize) :
    (bytes.page n)[i]? = some (bytes.getD (n * pageSize + i) 0) := by
  rw [Array.getD_eq_getD_getElem?]
  rcases Nat.lt_or_ge n count with hn | hn
  · obtain ⟨-, same⟩ := Page.slice?_eq_some.1 (Page.slice?_of_whole whole hn)
    rw [same i hi, Vector.getElem?_eq_getElem hi, Option.getD_some]
  · have outside := size_le_of_whole whole hn
    rw [Array.getElem?_eq_none (by omega), page_of_le whole hn, Page.zero,
      Vector.getElem?_replicate, if_pos hi]
    rfl

theorem counter_page (whole : bytes.size = count * pageSize) (n : Nat) :
    bytes.counter n = (bytes.page n).word 0 := by
  refine counter_eq fun i hi => ?_
  rw [getElem?_page whole n hi, Array.getD_eq_getD_getElem?, Option.getD_some]

end Bytes

namespace Scan

/-- The counters of the first pages are raised, pages of zeros are added before if they are missing,
and no other byte is changed. -/
structure CountedUp (old new : Bytes) (pages passes : Nat) : Prop where
  size : new.size = pageSize * max (old.size / pageSize) pages
  counter {n : PageNo} (hn : n < pages) : new.counter n = old.counter n + passes
  rest {i : Nat} (hi : i < new.size) (apart : ¬ (i / pageSize < pages ∧ i % pageSize < 8)) :
    new[i]? = some (old.getD i 0)

variable {a : Arguments} {c : Catalog} {path place : String} {count : Nat} {old new : Bytes}

theorem countedUp_of_pages {pages passes : Nat} (whole : old.size = count * pageSize)
    (fits : ∀ n < pages, (old.page n).word 0 + passes < wordLimit)
    (size : new.size = max count pages * pageSize)
    (slot : ∀ n < max count pages, ∀ i < pageSize, new[n * pageSize + i]? =
      (if n < pages then Page.raise^[passes] (old.page n) else old.page n)[i]?) :
    CountedUp old new pages passes where
  size := by
    rw [size, whole, Nat.mul_div_cancel _ Page.pageSize_pos, Nat.mul_comm]
  counter {n} hn := by
    have raised : new.counter n = (Page.raise^[passes] (old.page n)).word 0 := by
      refine Bytes.counter_eq fun i hi => ?_
      rw [slot n (Nat.lt_of_lt_of_le hn (Nat.le_max_right ..)) i hi, if_pos hn]
    rw [raised, Page.word_iterate_raise (fits n hn), Bytes.counter_page whole]
  rest {i} hi apart := by
    have hp := Page.pageSize_pos
    have there : i / pageSize < max count pages := by
      rw [Nat.div_lt_iff_lt_mul hp, ← size]
      exact hi
    have inside : i % pageSize < pageSize := Nat.mod_lt i hp
    have place : i / pageSize * pageSize + i % pageSize = i := Nat.div_add_mod' i pageSize
    have byte := slot (i / pageSize) there (i % pageSize) inside
    have before := Bytes.getElem?_page whole (i / pageSize) inside
    rw [place] at byte before
    rw [byte, ← before]
    split
    · next first => exact Page.getElem?_iterate_raise _ (Nat.le_of_not_lt fun h => apart ⟨first, h⟩)
    · rfl

/-- The program on its only file: either every counter that it has to raise can grow as much as it
takes, and then everything is in the file at the end, or the program ends with an overflow. -/
theorem work_cases {pages : PageNo → Page} (sole : c.Sole path place)
    (comprises : c.Comprises 0 count pages) (zeros : ∀ n, count ≤ n → pages n = .zero)
    (many : 0 < a.frames) (few : a.frames < frameLimit) :
    ((∀ n < a.pages, (pages n).word 0 + a.passes < wordLimit) ∧
      ∃ output c', work a c 0 = .ok (output, c') ∧ c'.Sole path place ∧
        c'.pageCount 0 = max count a.pages ∧ ∀ n < max count a.pages, c'.page? 0 n =
          some (if n < a.pages then Page.raise^[a.passes] (pages n) else pages n)) ∨
    ((¬ ∀ n < a.pages, (pages n).word 0 + a.passes < wordLimit) ∧
      ∃ c', work a c 0 = .error ⟨.abort .sumTooLarge, c'⟩) := by
  have product : a.frames * pageSize < wordLimit :=
    Nat.lt_of_lt_of_le (Nat.mul_lt_mul_of_pos_right few Page.pageSize_pos) (by decide)
  have all : count + (a.pages - count) = max count a.pages := by omega
  obtain ⟨s, grown, offers⟩ :=
    exists_grow (k := a.pages - count) (System.Offers.new many sole comprises) zeros
  rw [all] at offers
  have comes := comes_scan offers (Nat.le_max_right count a.pages) a.passes
  -- What the program shows of its pool does not matter here.
  obtain ⟨shown, begun⟩ : ∃ shown : System → List String, work a c 0 =
      scan 0 a.pages a.passes s >>= fun s₁ => flush s₁ >>= fun s₂ => .ok (shown s₁, s₂.files) := by
    refine ⟨?shown, ?begun⟩
    case begun =>
      simp only [work, Config.memory, if_pos product, Pool.ofConfig, Config.check,
        if_neg (Nat.ne_of_gt many), if_pos few, comprises.pageCount_eq]
      show (grow 0 (a.pages - count) (System.new a.frames c) >>= _) = _
      rw [grown]
      rfl
  rw [begun]
  generalize scan 0 a.pages a.passes s = x at comes
  cases comes with
  | @well s₁ fits offers =>
    obtain ⟨s', flushed, sole', number, page⟩ := offers.flush
    refine .inl ⟨fits, shown s₁, s'.files, ?_, sole', number, page⟩
    show (flush s₁ >>= _) = _
    rw [flushed]
    rfl
  | overflow full => exact .inr ⟨full, _, rfl⟩

/-- The program is exact however many frames there are. On a file of so many whole pages, or without
a file, it raises the counters of the first pages by the number of passes, adds the pages that are
missing and changes nothing else, provided that no counter in the file is too large for that. If one
is, the program ends with an overflow. -/
theorem scan_exact {drive : Drive} {args : List String} {a : Arguments} {place : String}
    {count : Nat} (parsed : parse args = .run a) (many : 0 < a.frames) (few : a.frames < frameLimit)
    (resolved : drive.resolve a.path = .ok place)
    (whole : (drive.contents place).size = count * pageSize) :
    let old := drive.contents place
    let outcome := runCommandLine drive args
    ((∀ n < a.pages, n < count → old.counter n + a.passes < wordLimit) →
      outcome.code = 0 ∧ CountedUp old (outcome.drive.contents place) a.pages a.passes) ∧
    ∀ n < a.pages, wordLimit ≤ old.counter n + a.passes → outcome.code = 101 := by
  intro old outcome
  obtain ⟨c, opened, sole, comprises⟩ := Catalog.exists_sole resolved whole
  have zeros (n : Nat) (hn : count ≤ n) : old.page n = .zero := Bytes.page_of_le whole hn
  have ran : outcome = run drive a := by
    show runCommandLine drive args = _
    rw [runCommandLine, parsed]
  rcases work_cases sole comprises zeros many few with
    ⟨fits, output, c', done, sole', number, page⟩ | ⟨full, c', done⟩
  · simp only [run, if_neg (Nat.ne_of_gt many), opened, done] at ran
    refine ⟨fun _ => ?_, fun n hn large => ?_⟩
    · obtain ⟨m, onDisk⟩ := sole'.store
      obtain ⟨size, slot⟩ := onDisk.contents number page
      rw [ran]
      exact ⟨rfl, countedUp_of_pages whole fits size slot⟩
    · have small := fits n hn
      rw [← Bytes.counter_page whole] at small
      exact (Nat.not_lt_of_ge large small).elim
  · simp only [run, if_neg (Nat.ne_of_gt many), opened, done] at ran
    refine ⟨fun fits => (full fun n hn => ?_).elim, fun _ _ _ => by rw [ran]⟩
    rw [← Bytes.counter_page whole]
    rcases Nat.lt_or_ge n count with there | missing
    · exact fits n hn there
    · -- A new page begins at zero, and there are fewer passes than it can count.
      rw [Bytes.counter_of_le whole missing, Nat.zero_add]
      exact Nat.lt_trans (parse_inRange parsed).passes (by decide)

def smallDrive (b : UInt8) : Drive := Drive.empty.put "pages" (Page.filled b).toArray

/-- Two passes over two pages with one frame, so that every page has to make room for the other. -/
def smallArguments : Arguments := ⟨"pages", 1, 2, 2⟩

theorem contents_smallDrive (b : UInt8) :
    (smallDrive b).contents "pages" = (Page.filled b).toArray :=
  (Drive.contents_put ..).trans (if_pos rfl)

theorem counter_filled (b : UInt8) :
    Bytes.counter (Page.filled b).toArray 0 = Bytes.toWord (List.replicate 8 b) := by
  refine congrArg Bytes.toWord (List.eq_replicate_iff.2 ⟨by simp, fun x hx => ?_⟩)
  obtain ⟨i, hi, rfl⟩ := List.mem_map.1 hx
  have inside : i < pageSize := Nat.lt_trans (List.mem_range.1 hi) (by decide)
  simp [Page.filled, inside]

/-- A page of sevens is counted up, and a page is added to it. A page of the largest bytes cannot
be counted up. -/
theorem scan_exact_small :
    ((runCommandLine (smallDrive 7) smallArguments.commandLine).code = 0 ∧
      CountedUp (Page.filled 7).toArray
        ((runCommandLine (smallDrive 7) smallArguments.commandLine).drive.contents "pages") 2 2) ∧
    (runCommandLine (smallDrive 255) smallArguments.commandLine).code = 101 := by
  have parsed : parse smallArguments.commandLine = .run smallArguments :=
    parse_commandLine ⟨by decide, by decide, by decide, by decide⟩
  have resolved (b : UInt8) : (smallDrive b).resolve "pages" = .ok "pages" := rfl
  have whole (b : UInt8) : ((smallDrive b).contents "pages").size = 1 * pageSize := by
    rw [contents_smallDrive, Vector.size_toArray, Nat.one_mul]
  have exact (b : UInt8) := scan_exact parsed Nat.one_pos (by decide) (resolved b) (whole b)
  simp only [contents_smallDrive] at exact
  refine ⟨(exact 7).1 fun n _ hn => ?_, (exact 255).2 0 Nat.two_pos ?_⟩
  · obtain rfl := Nat.lt_one_iff.1 hn
    rw [counter_filled]
    decide
  · rw [counter_filled]
    decide

end Scan

end SecondChance
