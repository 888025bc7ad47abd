import SecondChance.Page

/-!
How files, pages and frames are told apart.

Inside the program an open file is known by its number in the catalogue. A pool, however, keeps its
pages under the *identity* that the file reports at the moment, and an identity can change under a
resident page. `Labels` is the current answer of every open file to "who are you?", and everything
that depends on it takes it as an argument.
-/

namespace SecondChance

abbrev FileNo := Nat

abbrev FrameNo := Nat

/-- The identity of an open file; no two files of one process share one, unless they are told to. -/
structure FileId where
  number : Nat
  deriving DecidableEq

def FileId.text (i : FileId) : String := s!"#{i.number}"

def FileId.outline (i : FileId) : String := s!"FileId({i.number})"

/-- A page of a particular file, which is what a pool looks pages up by. -/
structure PageKey where
  file : FileId
  page : PageNo
  deriving DecidableEq

def PageNo.outline (n : PageNo) : String := s!"PageNo({n})"

def FrameNo.outline (n : FrameNo) : String := s!"FrameId({n})"

def PageKey.outline (k : PageKey) : String :=
  s!"PageKey \x7b file: {k.file.outline}, page_no: {PageNo.outline k.page} \x7d"

/-- What an open file answers about itself: its identity and the name that messages use. -/
structure FileLabel where
  id : FileId
  name : String

abbrev Labels := FileNo → FileLabel

/-- The key under which a page of an open file is to be found at the moment. -/
def Labels.key (labels : Labels) (file : FileNo) (page : PageNo) : PageKey :=
  ⟨(labels file).id, page⟩

end SecondChance
