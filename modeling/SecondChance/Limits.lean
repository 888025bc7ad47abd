import SecondChance.Page

/-!
The sizes that end a run instead of producing an error: numbers that no longer fit a machine word,
and pools without frames or with more frames than a frame number can name.
-/

namespace SecondChance

def wordLimit : Nat := 1 <<< 64

def frameLimit : Nat := 1 <<< 32

/-- Why a run is given up on the spot. -/
inductive Abort
  | noFrames
  | tooManyFrames (frames : Nat)
  | productTooLarge
  | sumTooLarge
  deriving DecidableEq

def Abort.message : Abort → String
  | .noFrames => "pool_size must be at least 1"
  | .tooManyFrames n => s!"pool_size {n} exceeds the frame index range"
  | .productTooLarge => "attempt to multiply with overflow"
  | .sumTooLarge => "attempt to add with overflow"

/-- The byte at which a page begins in a file on disk, as long as it fits a word. -/
def PageNo.byteOffset (n : PageNo) : Except Abort Nat :=
  if n * pageSize < wordLimit then .ok (n * pageSize) else .error .productTooLarge

structure Config where
  frames : Nat := 1024
  deriving DecidableEq

def Config.memory (c : Config) : Except Abort Nat :=
  if c.frames * pageSize < wordLimit then .ok (c.frames * pageSize) else .error .productTooLarge

def Config.outline (c : Config) : String :=
  s!"BufferPoolConfig \x7b pool_size: {c.frames} \x7d"

/-- A pool has at least one frame and not more than can be numbered. -/
def Config.check (c : Config) : Except Abort Unit :=
  if c.frames = 0 then .error .noFrames
  else if c.frames < frameLimit then .ok ()
  else .error (.tooManyFrames c.frames)

end SecondChance
