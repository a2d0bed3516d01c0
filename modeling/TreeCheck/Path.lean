import TreeCheck.Text

/-!
Slash-separated paths, treated lexically: cleaning, joining, and the parts of a path.
-/

namespace TreeCheck.Path

def slash : UInt8 := 0x2F

def dot : UInt8 := 0x2E

def isAbsolute (p : Text) : Bool :=
  p.head? == some slash

/-- The components of a cleaned path, last first: empty and dot components vanish, and a parent
step takes back the component before it, stays at the root, and is kept at the start of a relative
path. -/
def reduce (rooted : Bool) : List Text → List Text → List Text
  | [], kept => kept
  | c :: rest, kept =>
    if c = [] ∨ c = [dot] then reduce rooted rest kept
    else if c = [dot, dot] then
      match kept with
      | [] => reduce rooted rest (if rooted then [] else [[dot, dot]])
      | last :: others =>
        if last = [dot, dot] then reduce rooted rest (c :: kept) else reduce rooted rest others
    else reduce rooted rest (c :: kept)

def clean (p : Text) : Text :=
  let rooted := isAbsolute p
  let body := Text.join [slash] (reduce rooted (Text.splitOn slash p) []).reverse
  if rooted then slash :: body else if body.isEmpty then [dot] else body

def split (p : Text) : Text × Text :=
  let rev := p.reverse
  let last := rev.takeWhile (· != slash)
  ((rev.drop last.length).reverse, last.reverse)

def dir (p : Text) : Text :=
  clean (split p).1

def base (p : Text) : Text :=
  if p.isEmpty then [dot]
  else
    let trimmed := (p.reverse.dropWhile (· == slash)).reverse
    if trimmed.isEmpty then [slash] else (split trimmed).2

/-- The last dot of the last component and what follows it; empty without a dot. -/
def ext (p : Text) : Text :=
  let last := (split p).2
  let after := last.reverse.takeWhile (· != dot)
  if after.length = last.length then [] else dot :: after.reverse

def dropExt (p : Text) : Text :=
  p.take (p.length - (ext p).length)

/-- Two paths after each other, cleaned; an empty first one is left out. -/
def join (a b : Text) : Text :=
  if a.isEmpty then (if b.isEmpty then [] else clean b)
  else clean (a ++ [slash] ++ b)

def absolute (cwd p : Text) : Text :=
  if isAbsolute p then clean p else join cwd p

end TreeCheck.Path
