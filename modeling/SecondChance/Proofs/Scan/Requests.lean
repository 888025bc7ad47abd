import SecondChance.Scan.Arguments

/-!
The values that a command line comes to.

An option takes a value of its kind only, and the usual values are of these kinds, too. So whatever
the scan program is asked to do, its numbers are in range. And whatever is in range it can be asked
for, with one argument for each option.
-/

namespace SecondChance.Scan

variable {limit n : Nat} {s : String}

theorem number?_lt (h : number? limit s = some n) : n < limit :=
  of_decide_eq_true (Option.filter_eq_some_iff.1 h).2

theorem signedNumber?_lt (hl : 0 < limit) (h : signedNumber? limit s = some n) : n < limit := by
  unfold signedNumber? at h
  split at h
  · obtain rfl := of_decide_eq_true (Option.filter_eq_some_iff.1 h).2
    exact hl
  · exact number?_lt h

/-- The values are in the range of their kinds. -/
structure Arguments.InRange (a : Arguments) : Prop where
  path : a.path ≠ ""
  frames : a.frames < wordLimit
  pages : a.pages < wordLimit
  passes : a.passes < 1 <<< 32

namespace Given

variable {g g' : Given} {option value : String}

/-- The values met so far are in the range of their kinds. -/
structure InRange (g : Given) : Prop where
  path : ∀ s ∈ g.path, s ≠ ""
  frames : ∀ n ∈ g.frames, n < wordLimit
  pages : ∀ n ∈ g.pages, n < wordLimit
  passes : ∀ n ∈ g.passes, n < 1 <<< 32

theorem InRange.arguments (h : g.InRange) : g.arguments.InRange where
  path := by
    cases hp : g.path with
    | none => simp [Given.arguments, hp]
    | some s => simpa [Given.arguments, hp] using h.path s hp
  frames := by
    cases hn : g.frames with
    | none => simp [Given.arguments, hn, wordLimit]
    | some n => simpa [Given.arguments, hn] using h.frames n hn
  pages := by
    cases hn : g.pages with
    | none => simp [Given.arguments, hn, wordLimit]
    | some n => simpa [Given.arguments, hn] using h.pages n hn
  passes := by
    cases hn : g.passes with
    | none => simp [Given.arguments, hn]
    | some n => simpa [Given.arguments, hn] using h.passes n hn

theorem InRange.set? (h : g.InRange) (hs : g.set? option value = some g') : g'.InRange := by
  unfold Given.set? at hs
  split at hs
  · split at hs
    · cases hs
    · next taken =>
      cases hs
      refine { h with path := ?_ }
      rintro _ ⟨⟩ rfl
      exact taken (by simp)
  · split at hs
    · cases hs
    · obtain ⟨n, hn, rfl⟩ := Option.map_eq_some_iff.1 hs
      refine { h with frames := ?_ }
      rintro _ ⟨⟩
      exact number?_lt hn
  · split at hs
    · cases hs
    · obtain ⟨n, hn, rfl⟩ := Option.map_eq_some_iff.1 hs
      refine { h with pages := ?_ }
      rintro _ ⟨⟩
      exact number?_lt hn
  · split at hs
    · cases hs
    · obtain ⟨n, hn, rfl⟩ := Option.map_eq_some_iff.1 hs
      refine { h with passes := ?_ }
      rintro _ ⟨⟩
      exact signedNumber?_lt (by decide) hn
  · cases hs

end Given

theorem parseFrom_inRange {g : Given} {args : List String} {a : Arguments} (h : g.InRange)
    (hp : parseFrom g args = .run a) : a.InRange := by
  fun_induction parseFrom g args with
  | case1 | case2 =>
    -- The arguments are over, or nothing follows the two dashes.
    cases hp
    exact h.arguments
  | case6 _ _ _ _ _ _ _ _ _ _ hs ih | case10 _ _ _ _ _ _ _ _ _ _ hs ih => exact ih (h.set? hs) hp
  | _ => cases hp

/-- Whatever the program is asked to do is in range. -/
theorem parse_inRange {args : List String} {a : Arguments} (hp : parse args = .run a) : a.InRange :=
  parseFrom_inRange (g := {}) ⟨by rintro _ ⟨⟩, by rintro _ ⟨⟩, by rintro _ ⟨⟩, by rintro _ ⟨⟩⟩ hp

/-! ### Numbers and options as they are written -/

theorem digits?_toDigits (n : Nat) : digits? (Nat.toDigits 10 n) = some n := by
  have all : (Nat.toDigits 10 n).all Char.isDigit = true :=
    List.all_eq_true.2 fun _ hc => Nat.isDigit_of_mem_toDigits (by decide) (by decide) hc
  rw [digits?, all, ← Nat.ofDigitChars_eq_foldl, Nat.ofDigitChars_ten_toDigits]
  simp

theorem toDigits_ne_sign {c : Char} {cs : List Char} (hc : c.isDigit = false) (n : Nat) :
    Nat.toDigits 10 n ≠ c :: cs := by
  intro h
  have digit := Nat.isDigit_of_mem_toDigits (b := 10) (n := n) (c := c) (by decide) (by decide)
    (h ▸ List.mem_cons_self)
  rw [hc] at digit
  cases digit

theorem number?_repr (h : n < limit) : number? limit n.repr = some n := by
  unfold number?
  rw [Nat.toList_repr]
  split
  · next cs signed => exact (toDigits_ne_sign (by decide) n signed).elim
  · dsimp only
    rw [digits?_toDigits, Option.filter_some, if_pos (decide_eq_true h)]

theorem signedNumber?_repr (h : n < limit) : signedNumber? limit n.repr = some n := by
  unfold signedNumber?
  split
  · next cs signed =>
    rw [Nat.toList_repr] at signed
    exact (toDigits_ne_sign (by decide) n signed).elim
  · exact number?_repr h

/-- An option and its value as one argument. -/
def assignment (option value : String) : String := "--" ++ option ++ "=" ++ value

theorem toList_assignment (option value : String) : (assignment option value).toList =
    '-' :: '-' :: (option.toList ++ '=' :: value.toList) := by
  simp [assignment]

theorem splitOption?_assignment {option : String} (plain : '=' ∉ option.toList) (value : String) :
    splitOption? (assignment option value) = some (option, value) := by
  have ends : ∀ c ∈ option.toList, decide (c ≠ '=') = true := fun c hc =>
    decide_eq_true fun he => plain (he ▸ hc)
  simp only [splitOption?, toList_assignment, List.drop_succ_cons, List.drop_zero]
  rw [List.dropWhile_append_of_pos ends, List.takeWhile_append_of_pos ends]
  simp

theorem isInquiry_assignment (option value : String) :
    isInquiry (assignment option value) = false := by
  have other {s : String} (plain : '=' ∉ s.toList) : assignment option value ≠ s := by
    rintro rfl
    simp [toList_assignment] at plain
  have long {c : Char} (hc : c ≠ '-') :
      (assignment option value).startsWith (String.ofList ['-', c]) = false := by
    rw [String.startsWith_string_eq_false_iff, toList_assignment]
    simp [hc]
  have help : assignment option value ≠ "--help" := other (by decide)
  have version : assignment option value ≠ "--version" := other (by decide)
  have h : (assignment option value).startsWith "-h" = false := long (by decide)
  have v : (assignment option value).startsWith "-V" = false := long (by decide)
  simp only [isInquiry, help, version, h, v, decide_false, Bool.or_self]

/-- An option that is taken is taken from its assignment. -/
theorem parseFrom_assignment {g g' : Given} {option value : String} (plain : '=' ∉ option.toList)
    (hs : g.set? option value = some g') (args : List String) :
    parseFrom g (assignment option value :: args) = parseFrom g' args := by
  have dashes : (assignment option value).startsWith "--" = true := by
    rw [String.startsWith_string_iff, toList_assignment]
    simp
  have long : assignment option value ≠ "--" := by
    intro he
    have written := congrArg String.toList he
    simp [toList_assignment] at written
  rw [parseFrom.eq_def]
  dsimp only
  rw [if_neg long, isInquiry_assignment, splitOption?_assignment plain, dashes]
  simp [hs]

/-- The command line that asks for certain values. -/
def Arguments.commandLine (a : Arguments) : List String :=
  [assignment "path" a.path, assignment "pool-size" a.frames.repr,
    assignment "pages" a.pages.repr, assignment "passes" a.passes.repr]

/-- Whatever is in range can be asked for. -/
theorem parse_commandLine {a : Arguments} (h : a.InRange) : parse a.commandLine = .run a := by
  have path : Given.set? {} "path" a.path = some ⟨a.path, none, none, none⟩ := by
    simp [Given.set?, h.path]
  have frames : Given.set? ⟨a.path, none, none, none⟩ "pool-size" a.frames.repr =
      some ⟨a.path, a.frames, none, none⟩ := by
    simp [Given.set?, number?_repr h.frames]
  have pages : Given.set? ⟨a.path, a.frames, none, none⟩ "pages" a.pages.repr =
      some ⟨a.path, a.frames, a.pages, none⟩ := by
    simp [Given.set?, number?_repr h.pages]
  have passes : Given.set? ⟨a.path, a.frames, a.pages, none⟩ "passes" a.passes.repr =
      some ⟨a.path, a.frames, a.pages, a.passes⟩ := by
    simp only [Given.set?, signedNumber?_repr h.passes]
    rfl
  rw [parse, Arguments.commandLine, parseFrom_assignment (by decide) path,
    parseFrom_assignment (by decide) frames, parseFrom_assignment (by decide) pages,
    parseFrom_assignment (by decide) passes, parseFrom]
  rfl

end SecondChance.Scan
