import SecondChance.Identity
import SecondChance.Text.Quoted

/-!
Everything that can go wrong, as causes.

A `StoreError` comes from a page file, a `PoolError` from a buffer pool; a pool hands the errors of
its files on unchanged, wrapped in `PoolError.store`. Each type has one `message`, one list of
`causes` (the messages of the errors it wraps, outermost first) and one inspected form `outline`.
-/

namespace SecondChance

inductive IoCause
  | noEntry
  | notDirectory
  | isDirectory
  | nameTooLong
  | zeroInName
  | endOfFile
  | reported (text : String)
  deriving DecidableEq

def IoCause.message : IoCause → String
  | .noEntry => "No such file or directory (os error 2)"
  | .notDirectory => "Not a directory (os error 20)"
  | .isDirectory => "Is a directory (os error 21)"
  | .nameTooLong => "File name too long (os error 36)"
  | .zeroInName => "file name contained an unexpected NUL byte"
  | .endOfFile => "early eof"
  | .reported text => text

def IoCause.outline : IoCause → String
  | .noEntry => "Os \x7b code: 2, kind: NotFound, message: \"No such file or directory\" \x7d"
  | .notDirectory => "Os \x7b code: 20, kind: NotADirectory, message: \"Not a directory\" \x7d"
  | .isDirectory => "Os \x7b code: 21, kind: IsADirectory, message: \"Is a directory\" \x7d"
  | .nameTooLong => "Os \x7b code: 36, kind: InvalidFilename, message: \"File name too long\" \x7d"
  | .zeroInName =>
    "Error \x7b kind: InvalidInput, message: \"file name contained an unexpected NUL byte\" \x7d"
  | .endOfFile => "Custom \x7b kind: UnexpectedEof, error: \"early eof\" \x7d"
  | .reported text => "Custom \x7b kind: Other, error: " ++ Text.quoted text ++ " \x7d"

/-- What a page file can answer instead of doing what it was asked. -/
inductive StoreError
  /-- The page was never allocated, or it has been deleted. -/
  | pageNotFound (file : String) (page : PageNo)
  /-- The caller's buffer does not hold exactly one page. -/
  | wrongBufferSize (expected actual : Nat)
  /-- The operating system refused. -/
  | io (cause : IoCause)
  /-- The file may not grow any further. -/
  | full
  /-- The file is not a whole number of pages. -/
  | corrupted (detail : String)
  deriving DecidableEq

def StoreError.message : StoreError → String
  | .pageNotFound file page => s!"page {page} not found in {file}"
  | .wrongBufferSize expected actual =>
    s!"invalid buffer size: expected {expected}, got {actual}"
  | .io cause => "I/O error: " ++ cause.message
  | .full => "storage is full"
  | .corrupted detail => "data corruption: " ++ detail

def StoreError.causes : StoreError → List String
  | .io cause => [cause.message]
  | _ => []

def StoreError.outline : StoreError → String
  | .pageNotFound file page =>
    "PageNotFound \x7b file: " ++ Text.quoted file ++ s!", page_no: {PageNo.outline page} \x7d"
  | .wrongBufferSize expected actual =>
    s!"InvalidBufferSize \x7b expected: {expected}, actual: {actual} \x7d"
  | .io cause => "Io(" ++ cause.outline ++ ")"
  | .full => "StorageFull"
  | .corrupted detail => "Corrupted(" ++ Text.quoted detail ++ ")"

/-- How the frames of a pool and its page table can disagree. -/
inductive Discrepancy
  /-- The table maps a page to a frame that holds nothing. -/
  | mapsToEmpty (key : PageKey)
  /-- A frame holds a page that the table does not map to it. -/
  | notMappedHere (page : PageNo) (file : String)
  /-- A frame holds a page for which the table has something else, or nothing. -/
  | tableHas (page : PageNo) (file : String) (found : Option FrameNo)
  /-- The table maps a page to a frame that holds something else, or nothing. -/
  | frameHolds (key : PageKey) (held : Option PageKey)
  /-- A disagreement in someone else's words. -/
  | described (text : String)
  deriving DecidableEq

def lookupOutline : Option FrameNo → String
  | some frame => s!"Found({FrameNo.outline frame})"
  | none => "NotFound"

def heldOutline : Option PageKey → String
  | some key => s!"Some({key.outline})"
  | none => "None"

def Discrepancy.message : Discrepancy → String
  | .mapsToEmpty key =>
    s!"page table maps page {key.page} of file {key.file.text} to an empty frame"
  | .notMappedHere page file =>
    s!"frame holds page {page} of {file} but the page table does not map it here"
  | .tableHas page file found =>
    s!"frame holds page {page} of {file} but the page table has {lookupOutline found}"
  | .frameHolds key held =>
    s!"page table maps page {key.page} of file {key.file.text} here but the frame holds "
      ++ heldOutline held
  | .described text => text

/-- What a buffer pool can answer instead of doing what it was asked. -/
inductive PoolError
  /-- Every frame is pinned. -/
  | exhausted (frames : Nat)
  /-- A pin was given back that nobody holds. -/
  | notPinned (file : String) (page : PageNo) (frame : FrameNo)
  /-- The page may not be pinned for this, but it is. -/
  | pinned (file : String) (page : PageNo) (frame : FrameNo)
  /-- The frames and the page table disagree. -/
  | inconsistent (frame : FrameNo) (detail : Discrepancy)
  /-- The frame has moved on since the handle was issued. -/
  | stale (frame : FrameNo)
  /-- The page file refused. -/
  | store (error : StoreError)
  deriving DecidableEq

def PoolError.message : PoolError → String
  | .exhausted frames => s!"buffer pool exhausted: all {frames} frames are pinned"
  | .notPinned file page frame => s!"page {page} of {file} (frame {frame}) is not pinned"
  | .pinned file page frame => s!"page {page} of {file} (frame {frame}) is still pinned"
  | .inconsistent frame detail => s!"corrupt state in frame {frame}: {detail.message}"
  | .stale frame => s!"stale page handle for frame {frame}"
  | .store error => "storage error: " ++ error.message

def PoolError.causes : PoolError → List String
  | .store error => error.message :: error.causes
  | _ => []

def placeOutline (file : String) (page : PageNo) (frame : FrameNo) : String :=
  "\x7b file: " ++ Text.quoted file
    ++ s!", page_no: {PageNo.outline page}, frame_id: {FrameNo.outline frame} \x7d"

def PoolError.outline : PoolError → String
  | .exhausted frames => s!"CapacityExceeded \x7b pool_size: {frames} \x7d"
  | .notPinned file page frame => "PageNotPinned " ++ placeOutline file page frame
  | .pinned file page frame => "PagePinned " ++ placeOutline file page frame
  | .inconsistent frame detail =>
    s!"CorruptFrameState \x7b frame_id: {FrameNo.outline frame}, detail: "
      ++ Text.quoted detail.message ++ " \x7d"
  | .stale frame => s!"StaleHandle \x7b frame_id: {FrameNo.outline frame} \x7d"
  | .store error => "Storage(" ++ error.outline ++ ")"

end SecondChance
