import SecondChance.Limits

/-!
The command line of the scan program.

There are four options, each with a value and each given at most once, as `--option value` or as
`--option=value`. The arguments are taken from left to right and the first one that asks for the
help text, asks for the version or makes no sense decides.
-/

namespace SecondChance.Scan

/-- What the program is asked to do. -/
structure Arguments where
  path : String
  frames : Nat
  pages : Nat
  passes : Nat

structure Given where
  path : Option String := none
  frames : Option Nat := none
  pages : Option Nat := none
  passes : Option Nat := none

inductive Request
  | run (a : Arguments)
  /-- Only the help text or the version is asked for. -/
  | inform
  | invalid

def digits? (s : List Char) : Option Nat :=
  if s.isEmpty || !s.all Char.isDigit then none
  else some (s.foldl (fun n c => 10 * n + (c.toNat - '0'.toNat)) 0)

def number? (limit : Nat) (s : String) : Option Nat :=
  let digits := match s.toList with
    | '+' :: cs => cs
    | cs => cs
  (digits? digits).filter (· < limit)

/-- A number below a limit that is read as a signed one, so that even a minus sign may stand before
a zero. -/
def signedNumber? (limit : Nat) (s : String) : Option Nat :=
  match s.toList with
  | '-' :: cs => (digits? cs).filter (· = 0)
  | _ => number? limit s

namespace Given

/-- The options with one more, unless it was met before or its value makes no sense. -/
def set? (g : Given) (option value : String) : Option Given :=
  match option with
  | "path" =>
    if g.path.isSome || value.isEmpty then none else some { g with path := some value }
  | "pool-size" =>
    if g.frames.isSome then none
    else (number? wordLimit value).map fun n => { g with frames := some n }
  | "pages" =>
    if g.pages.isSome then none
    else (number? wordLimit value).map fun n => { g with pages := some n }
  | "passes" =>
    if g.passes.isSome then none
    else (signedNumber? (1 <<< 32) value).map fun n => { g with passes := some n }
  | _ => none

def arguments (g : Given) : Arguments :=
  ⟨g.path.getD "clockpool.db", g.frames.getD 16, g.pages.getD 64, g.passes.getD 3⟩

end Given

/-- Whether an argument begins like an option and so cannot be a value. A dash alone does not. -/
def isOption (arg : String) : Bool := arg.startsWith "-" && arg ≠ "-"

def isInquiry (arg : String) : Bool :=
  arg = "--help" || arg = "--version" || arg.startsWith "-h" || arg.startsWith "-V"

def splitOption? (arg : String) : Option (String × String) :=
  let body := arg.toList.drop 2
  match body.dropWhile (· ≠ '=') with
  | [] => none
  | _ :: value => some (String.ofList (body.takeWhile (· ≠ '=')), String.ofList value)

/-- Takes the arguments from left to right. -/
def parseFrom (g : Given) : List String → Request
  | [] => .run g.arguments
  | arg :: rest =>
    if arg = "--" then if rest.isEmpty then .run g.arguments else .invalid
    else if isInquiry arg then .inform
    else if !arg.startsWith "--" then .invalid
    else
      match splitOption? arg with
      | some (option, value) =>
        match g.set? option value with
        | some g => parseFrom g rest
        | none => .invalid
      | none =>
        match rest with
        | [] => .invalid
        | value :: rest =>
          if isOption value then .invalid
          else
            match g.set? (String.ofList (arg.toList.drop 2)) value with
            | some g => parseFrom g rest
            | none => .invalid

def parse (args : List String) : Request := parseFrom {} args

end SecondChance.Scan
