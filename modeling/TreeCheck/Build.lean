import TreeCheck.Paint
import TreeCheck.Text.Blank

/-!
What is known about a build: its version, the commit and the date, and how the version is shown.
-/

namespace TreeCheck

structure Build where
  version : Text
  commit : Text
  date : Text

namespace Build

def default : Build :=
  ⟨text "0.1.0-dev", [], []⟩

/-- The metadata without white space at the ends; a build without a version is called dev. -/
def trimmed (b : Build) : Build :=
  let version := Text.trim b.version
  { version := if version.isEmpty then text "dev" else version
    commit := Text.trim b.commit
    date := Text.trim b.date }

/-- A version with its three numbers in colours of their own. Anything but three parts with points
between them, up to a first hyphen, is shown as it is. -/
def banner (version : Text) (colors : Bool) : Text :=
  let (core, suffix) := (Text.cut? 0x2D version).getD (version, [])
  match Text.splitOn 0x2E core with
  | [major, minor, patch] =>
    Style.yellow.paint colors major ++ text "." ++ Style.green.paint colors minor ++ text "." ++
      Style.blue.paint colors patch ++ (if suffix.isEmpty then [] else text "-" ++ suffix)
  | _ => version

end Build

end TreeCheck
