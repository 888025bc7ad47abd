import SecondChance.Error
import SecondChance.Pool.Frame

/-!
The events that a pool reports while it works, and how one is written on a line: its level, what
happened, and the facts about it in a fixed order.
-/

namespace SecondChance

inductive Level
  | trace
  | debug
  | warn
  deriving DecidableEq

def Level.text : Level → String
  | .trace => "TRACE"
  | .debug => "DEBUG"
  | .warn => "WARN"

/-- Something worth reporting. Files appear by name. -/
inductive Event
  | hit (file : String) (page : PageNo) (frame : FrameNo) (pins : Nat)
  | miss (file : String) (page : PageNo) (frame : FrameNo)
  | leftClean (frame : FrameNo) (page : PageNo)
  | leftWritten (frame : FrameNo) (page : PageNo)
  | waiting (frame : FrameNo)
  | readFailed (file : String) (page : PageNo) (error : StoreError)
  | wroteBack (file : String) (page : PageNo) (frame : FrameNo)
  | abandoned (frame : FrameNo) (kind : Transfer.Kind)
  | allocated (file : String) (page : PageNo)
  | disposed (file : String) (page : PageNo)
  | unpinned (file : String) (page : PageNo) (frame : FrameNo) (pins : Nat) (dirty : Bool)
  | unpinFailed (file : String) (page : PageNo) (frame : FrameNo) (error : PoolError)
  | flushedFile (file : String) (written : Nat)
  | flushedAll (files : Nat)
  | droppedDirty (dirty : Nat)

namespace Event

def level : Event → Level
  | .hit .. | .waiting .. | .unpinned .. => .trace
  | .unpinFailed .. | .droppedDirty .. => .warn
  | _ => .debug

def message : Event → String
  | .hit .. => "page hit"
  | .miss .. => "page miss"
  | .leftClean .. => "evicted clean page"
  | .leftWritten .. => "evicted written-back page"
  | .waiting .. => "waiting for busy frame"
  | .readFailed .. => "page read failed"
  | .wroteBack .. => "wrote back dirty page"
  | .abandoned .. => "abandoned frame I/O"
  | .allocated .. => "allocated page"
  | .disposed .. => "disposed page"
  | .unpinned .. => "unpinned page"
  | .unpinFailed .. => "failed to unpin page on drop"
  | .flushedFile .. => "flushed file"
  | .flushedAll .. => "flushed all dirty pages"
  | .droppedDirty .. => "buffer manager dropped with unflushed dirty pages"

def inFile (file : String) (page : PageNo) : List (String × String) :=
  [("file", file), ("page", toString page)]

def inFrame (frame : FrameNo) : List (String × String) := [("frame", toString frame)]

def fields : Event → List (String × String)
  | .hit file page frame pins => inFile file page ++ inFrame frame ++ [("pins", toString pins)]
  | .miss file page frame => inFile file page ++ inFrame frame
  | .leftClean frame page | .leftWritten frame page => inFrame frame ++ [("page", toString page)]
  | .waiting frame => inFrame frame
  | .readFailed file page error => inFile file page ++ [("error", error.message)]
  | .wroteBack file page frame => inFile file page ++ inFrame frame
  | .abandoned frame kind => inFrame frame ++ [("io", (FrameIo.busy kind).text)]
  | .allocated file page | .disposed file page => inFile file page
  | .unpinned file page frame pins dirty =>
    inFile file page ++ inFrame frame ++ [("pins", toString pins), ("dirty", toString dirty)]
  | .unpinFailed file page frame error =>
    inFile file page ++ inFrame frame ++ [("error", error.message)]
  | .flushedFile file written => [("file", file), ("written", toString written)]
  | .flushedAll files => [("files", toString files)]
  | .droppedDirty dirty => [("dirty", toString dirty)]

def line (e : Event) : String :=
  " ".intercalate (e.level.text :: e.message :: e.fields.map fun (k, v) => k ++ "=" ++ v)

end Event

end SecondChance
