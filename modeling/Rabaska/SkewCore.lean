import Rabaska.Library.Machine

/-! How a page load starts: the executable model of `buildsAgree`, `healSkew` and the head of `main` in
`app.js`. -/

namespace Rabaska.Shell

/-- What `sessionStorage` does during a page load. -/
inductive Storage where
  | working
  | getItemThrows
  | setItemThrows
  deriving DecidableEq, Repr

/-- The builds that the three files of a load say they are of; an export that a file does not have is
undefined. -/
structure Load where
  build : String
  glueBuild : Option String
  wasmBuild : Option String
  storage : Storage
  deriving DecidableEq, Repr

def buildsAgree (load : Load) : Bool :=
  load.glueBuild = some load.build ∧ load.wasmBuild = some load.build

def mixedSet : String := "This device is being served a mixed set of files. " ++
  "Reload once more, and if it persists the origin is serving parts of two different builds."

inductive Boot where
  | started
  | stopped (hint : String)
  | reloaded
  deriving DecidableEq, Repr

/-- `entry` is the item `rabaska:healed-skew`, which a tab keeps from one load to the next. What is read
before `setItem` throws stays read. -/
def healSkew (storage : Storage) (entry : Option String) : Boot × Option String :=
  let (tried, entry) := match storage with
    | .working => (decide (entry = some "1"), some "1")
    | .getItemThrows => (false, entry)
    | .setItemThrows => (decide (entry = some "1"), entry)
  if tried then (.stopped mixedSet, entry) else (.reloaded, entry)

def main (entry : Option String) (load : Load) : Boot × Option String :=
  if buildsAgree load then (.started, entry) else healSkew load.storage entry

end Rabaska.Shell
