import SideEffectLint.Text.SystemText

/-!
Paths as they are written. A path keeps its text; its components are what it means.
-/

namespace SideEffectLint

namespace Path

def slash : UInt8 :=
  '/'.toUInt8

/-- A name in a directory has at most so many bytes. -/
def maxNameBytes : Nat :=
  255

/-- Whether something in a directory can have the name. -/
def isName (text : SystemText) : Bool :=
  !(["", ".", ".."].any (SystemText.ofString · = text)) && !text.bytes.contains slash &&
    !text.bytes.contains 0 && text.bytes.length ≤ maxNameBytes

end Path

/-- A name of something in a directory. -/
structure FileName where
  text : SystemText
  isName : Path.isName text = true
deriving Repr, DecidableEq

namespace FileName

def ofText? (text : SystemText) : Option FileName :=
  if h : Path.isName text = true then some ⟨text, h⟩ else none

end FileName

namespace Path

/-- Components in the order in which paths are sorted, names by their bytes. -/
inductive Component where
  | root
  | current
  | parent
  | name (text : SystemText)
deriving Repr, DecidableEq, Inhabited, Ord

def ofPart (part : SystemText) : Option Component :=
  if part = "" ∨ part = "." then none
  else if part = ".." then some .parent
  else some (.name part)

/-- The bytes between the slashes. -/
def splitSlashes : List UInt8 → List (List UInt8)
  | [] => [[]]
  | b :: bs =>
    if b = slash then [] :: splitSlashes bs
    else
      match splitSlashes bs with
      | p :: ps => (b :: p) :: ps
      | [] => [[b]]

def parts (path : SystemText) : List SystemText :=
  (splitSlashes path.bytes).map SystemText.mk

def isAbsolute (path : SystemText) : Bool :=
  path.bytes.head? = some slash

/-- A dot counts only in front of a relative path, and an empty part nowhere. -/
def components (path : SystemText) : List Component :=
  let first : List Component :=
    if isAbsolute path then [.root]
    else if (parts path).head? = some (SystemText.ofString ".") then [.current] else []
  first ++ (parts path).filterMap ofPart

/-- The last component of a path, as long as it is a name. -/
def fileName (path : SystemText) : Option SystemText :=
  match (components path).getLast? with
  | some (.name text) => some text
  | _ => none

/-- The path of `path` as seen from `base`. -/
def join (base path : SystemText) : SystemText :=
  if isAbsolute path then path
  else if base.bytes = [] ∨ base.bytes.getLast? = some slash then base ++ path
  else base ++ "/" ++ path

/-- The path of a place below `base`, by the names that lead to it. -/
def below (base : SystemText) (names : List FileName) : SystemText :=
  names.foldl (fun path name => join path name.text) base

/-- The names that lead to a path from the root, as far as its text tells. -/
def names (path : SystemText) : List FileName :=
  ((components path).foldl step []).reverse
where
  step (above : List FileName) : Component → List FileName
    | .name text => (FileName.ofText? text).toList ++ above
    | .parent => above.drop 1
    | _ => above

def le (a b : SystemText) : Bool :=
  (compare (components a) (components b)).isLE

def sort (paths : List SystemText) : List SystemText :=
  paths.mergeSort le

end Path

end SideEffectLint
