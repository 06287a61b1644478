import SideEffectLint.Files.Entry

/-!
A system of files as seen from a current directory, and where paths lead in it.
-/

namespace SideEffectLint

namespace Directory

/-- The directory that the names lead to, behind those on the way to it, the nearest first. -/
def descend? (above : List Directory) (d : Directory) :
    List FileName → Option (List Directory × Directory)
  | [] => some (above, d)
  | name :: names =>
    match d.child? name.text with
    | some (.directory d') => descend? (d :: above) d' names
    | _ => none

end Directory

/-- A tree of files, and the current directory in it unless that cannot be told. -/
structure FileSystem extends Tree where
  current : Except FileFault (List FileName)
  exists_current : ∀ names, current = .ok names → (root.descend? [] names).isSome = true

namespace FileSystem

/-- The tree as seen from the directory that the names lead to; it has been removed if there is none. -/
def of (t : Tree) (current : Except FileFault (List FileName)) : FileSystem where
  toTree := t
  current := do
    let names ← current
    if (t.root.descend? [] names).isSome then pure names else .error .notFound
  exists_current names h := by
    cases current with
    | error fault => cases h
    | ok names' =>
      change (if _ then Except.ok names' else _) = Except.ok names at h
      split at h
      · cases h
        assumption
      · cases h

/-- So many links may be followed on the way to an entry. -/
def maxLinks : Nat :=
  40

/-- A path has at most so many bytes. -/
def maxPathBytes : Nat :=
  4095

end FileSystem

/-- What is reached on the way along a path: an entry, and the directories that hold it, the nearest first. -/
structure Reach where
  /-- So many links may still be followed. -/
  links : Nat
  above : List Directory
  entry : Entry

namespace Reach

/-- Where a link leads on from. -/
def start (links : Nat) (above : List Directory) (d : Directory) (target : SystemText) : Reach :=
  match Path.isAbsolute target, above.getLast? with
  | true, some root => ⟨links, [], .directory root⟩
  | _, _ => ⟨links, above, .directory d⟩

/-- Goes on by a part of a path; a link has parts of its own that come next. -/
def next (r : Reach) (part : SystemText) : Except FileFault (Reach × List SystemText) :=
  match r.entry with
  | .directory d =>
    if part = "" then .ok (r, [])
    else
      match d.access.search with
      | .error fault => .error fault
      | .ok () =>
        if part = "." then .ok (r, [])
        else if part = ".." then
          match r.above with
          | [] => .ok (r, [])
          | parent :: above => .ok (⟨r.links, above, .directory parent⟩, [])
        else if Path.maxNameBytes < part.bytes.length then .error .nameTooLong
        else
          match d.child? part with
          | none => .error .notFound
          | some (.link target) =>
            match r.links with
            | 0 => .error .linkLoop
            | links + 1 => .ok (start links r.above d target, Path.parts target)
          | some e => .ok (⟨r.links, d :: r.above, e⟩, [])
  | _ => .error .notDirectory

private theorem links_start (links : Nat) (above : List Directory) (d : Directory) (target : SystemText) :
    (start links above d target).links = links := by
  unfold start
  split <;> rfl

/-- The ways to go on from a directory. -/
inductive GoesOn (r : Reach) (d : Directory) (part : SystemText) : Reach → List SystemText → Prop
  | stay : GoesOn r d part r []
  | up {parent : Directory} {above : List Directory} (h : r.above = parent :: above) :
    GoesOn r d part ⟨r.links, above, .directory parent⟩ []
  | link {links : Nat} {target : SystemText} (hl : r.links = links + 1)
    (hc : d.child? part = some (.link target)) :
    GoesOn r d part (start links r.above d target) (Path.parts target)
  | down {e : Entry} (hc : d.child? part = some e) : GoesOn r d part ⟨r.links, d :: r.above, e⟩ []

theorem goesOn_of_next {r r' : Reach} {part : SystemText} {before : List SystemText}
    (h : r.next part = .ok (r', before)) :
    ∃ d, r.entry = .directory d ∧ r.GoesOn d part r' before := by
  unfold next at h
  cases hd : r.entry with
  | directory d =>
    rw [hd] at h
    dsimp only at h
    refine ⟨d, rfl, ?_⟩
    repeat' split at h
    all_goals cases h
    all_goals first
      | exact .stay
      | exact .up ‹_›
      | exact .link ‹_› ‹_›
      | exact .down ‹_›
  | file | link | special =>
    rw [hd] at h
    cases h

private theorem links_next {r r' : Reach} {part : SystemText} {before : List SystemText}
    (h : r.next part = .ok (r', before)) : r'.links < r.links ∨ r'.links = r.links ∧ before = [] := by
  obtain ⟨d, -, hg⟩ := goesOn_of_next h
  cases hg with
  | stay | up | down => exact .inr ⟨rfl, rfl⟩
  | link hl =>
    rw [links_start, hl]
    exact .inl (Nat.lt_succ_self _)

/-- Goes on by all parts. -/
def follow (r : Reach) : List SystemText → Except FileFault Entry
  | [] => .ok r.entry
  | part :: rest =>
    match _ : r.next part with
    | .ok (r', before) => r'.follow (before ++ rest)
    | .error fault => .error fault
termination_by parts => (r.links, parts.length)
decreasing_by
  rename_i h
  rcases links_next h with hl | ⟨hl, rfl⟩
  · exact Prod.Lex.left _ _ hl
  · rw [hl]
    exact Prod.Lex.right _ (Nat.lt_succ_self _)

end Reach

namespace FileSystem

/-- The directory that a path is seen from, behind those that it is in. -/
def start (fs : FileSystem) (path : SystemText) : Except FileFault (List Directory × Directory) :=
  if Path.isAbsolute path then .ok ([], fs.root)
  else
    match h : fs.current with
    | .ok names => .ok ((fs.root.descend? [] names).get (fs.exists_current names h))
    | .error fault => .error fault

/-- What a path leads to, past all links. -/
def entry (fs : FileSystem) (path : SystemText) : Except FileFault Entry :=
  if path.bytes.contains 0 then .error .nulInPath
  else if path = "" then .error .notFound
  else if maxPathBytes < path.bytes.length then .error .nameTooLong
  else do
    let (above, d) ← fs.start path
    Reach.follow ⟨maxLinks, above, .directory d⟩ (Path.parts path)

def pathExists (fs : FileSystem) (path : SystemText) : Bool :=
  (fs.entry path).isOk

def readText (fs : FileSystem) (path : SystemText) : Except FileFault String := do
  match ← fs.entry path with
  | .file content | .special content =>
    match String.fromUTF8? (← content) with
    | some text => .ok text
    | none => .error .notText
  | .directory d => do
    d.access.list
    .error .isDirectory
  | .link _ => .error .linkLoop

/-- The text of the current directory. -/
def currentPath (fs : FileSystem) : Except FileFault SystemText :=
  fs.current.map fun
    | [] => "/"
    | name :: names => Path.below ("/" ++ name.text) names

/-- The path of `path` from the root. -/
def absolute (fs : FileSystem) (path : SystemText) : Except FileFault SystemText :=
  if Path.isAbsolute path then .ok path else fs.currentPath.map (Path.join · path)

end FileSystem

end SideEffectLint
