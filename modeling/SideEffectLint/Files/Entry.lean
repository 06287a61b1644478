import SideEffectLint.Path.Basic

/-!
Files and directories, and what stands in the way of reading them.
-/

namespace SideEffectLint

/-- Why the system gives no answer. -/
inductive FileFault where
  | notFound
  | inputOutput
  | permissionDenied
  | notDirectory
  | isDirectory
  | nameTooLong
  | linkLoop
  /-- A path holds the character that ends a path for the system. -/
  | nulInPath
  | notText
deriving Repr, DecidableEq, Inhabited

namespace FileFault

def message : FileFault → String
  | notFound => "No such file or directory (os error 2)"
  | inputOutput => "Input/output error (os error 5)"
  | permissionDenied => "Permission denied (os error 13)"
  | notDirectory => "Not a directory (os error 20)"
  | isDirectory => "Is a directory (os error 21)"
  | nameTooLong => "File name too long (os error 36)"
  | linkLoop => "Too many levels of symbolic links (os error 40)"
  | nulInPath => "file name contained an unexpected NUL byte"
  | notText => "stream did not contain valid UTF-8"

end FileFault

/-- What a directory allows: that its names are listed, and that something is looked up in it. -/
structure Access where
  list : Except FileFault Unit := .ok ()
  search : Except FileFault Unit := .ok ()
deriving Inhabited

mutual

/-- What a name in a directory stands for. -/
inductive Entry where
  | file (content : Except FileFault ByteArray)
  | directory (d : Directory)
  /-- A symbolic link. -/
  | link (target : SystemText)
  /-- A device, a pipe or the like, with what reading it gives. -/
  | special (content : Except FileFault ByteArray)

/-- A directory with its items in the order in which it lists them. -/
inductive Directory where
  | mk (access : Access) (children : List Child)

inductive Child where
  | mk (name : FileName) (entry : Entry)
  /-- Reading on in the list of names fails here. -/
  | unread (fault : FileFault)

end

instance : Inhabited Entry := ⟨.link default⟩
instance : Inhabited Directory := ⟨.mk {} []⟩

namespace Child

def name? : Child → Option FileName
  | mk name _ => some name
  | unread _ => none

/-- What stands for the name, if this is it. -/
def find? (name : SystemText) : Child → Option Entry
  | mk name' e => if name'.text = name then some e else none
  | unread _ => none

end Child

namespace Directory

def access : Directory → Access
  | mk access _ => access

def children : Directory → List Child
  | mk _ children => children

/-- A directory that allows everything. -/
def of (children : List Child) : Directory :=
  .mk {} children

def child? (d : Directory) (name : SystemText) : Option Entry :=
  d.children.findSome? (Child.find? name)

/-- The directory that has the name in this one; an empty one if there is none. -/
def inner (d : Directory) (name : FileName) : Directory :=
  match d.child? name.text with
  | some (.directory d') => d'
  | _ => .of []

end Directory

mutual

/-- In no directory two things have one name. -/
def Entry.isTree : Entry → Bool
  | .directory d => d.isTree
  | .file _ | .link _ | .special _ => true

def Directory.isTree : Directory → Bool
  | .mk _ children => Child.areTree children

def Child.areTree : List Child → Bool
  | [] => true
  | .unread _ :: cs => Child.areTree cs
  | .mk name e :: cs => cs.all (·.name? != some name) && e.isTree && Child.areTree cs

end

namespace Child

def replace (name : FileName) (e : Entry) : List Child → List Child
  | [] => [.mk name e]
  | c :: cs => if c.name? = some name then .mk name e :: cs else c :: replace name e cs

variable {name : FileName} {e : Entry} {cs : List Child}

private theorem forall_name?_replace {other : FileName} (hn : other ≠ name)
    (h : ∀ c ∈ cs, c.name? ≠ some other) : ∀ c ∈ replace name e cs, c.name? ≠ some other := by
  induction cs with
  | nil =>
    intro c hc
    rw [List.mem_singleton.mp hc]
    simpa [name?] using hn.symm
  | cons c cs ih =>
    obtain ⟨hc, hcs⟩ := List.forall_mem_cons.mp h
    rw [replace]
    split
    · exact List.forall_mem_cons.mpr ⟨by simpa [name?] using hn.symm, hcs⟩
    · exact List.forall_mem_cons.mpr ⟨hc, ih hcs⟩

theorem areTree_cons_iff {name : FileName} : areTree (.mk name e :: cs) = true ↔
    (∀ c ∈ cs, c.name? ≠ some name) ∧ e.isTree = true ∧ areTree cs = true := by
  simp [areTree, and_assoc]

private theorem areTree_replace (he : e.isTree = true) (h : areTree cs = true) :
    areTree (replace name e cs) = true := by
  induction cs with
  | nil => exact areTree_cons_iff.mpr ⟨by simp, he, rfl⟩
  | cons c cs ih =>
    cases c with
    | unread fault =>
      have hn : (unread fault).name? ≠ some name := by simp [name?]
      rw [replace, if_neg hn]
      exact ih h
    | mk name' e' =>
      obtain ⟨hother, he', hcs⟩ := areTree_cons_iff.mp h
      rw [replace]
      split
      · rename_i hn
        obtain rfl := Option.some.inj hn
        exact areTree_cons_iff.mpr ⟨hother, he, hcs⟩
      · rename_i hn
        have hne : name' ≠ name := fun heq => hn (congrArg some heq)
        exact areTree_cons_iff.mpr ⟨forall_name?_replace hne hother, he', ih hcs⟩

theorem isTree_of_mem (h : areTree cs = true) (hm : .mk name e ∈ cs) : e.isTree = true := by
  induction cs with
  | nil => cases hm
  | cons c cs ih =>
    cases c with
    | unread fault =>
      rcases List.mem_cons.mp hm with heq | hm
      · cases heq
      · exact ih h hm
    | mk name' e' =>
      obtain ⟨-, he, hcs⟩ := areTree_cons_iff.mp h
      rcases List.mem_cons.mp hm with heq | hm
      · cases heq
        exact he
      · exact ih hcs hm

private theorem find?_eq_some_iff {c : Child} {name : SystemText} :
    c.find? name = some e ↔ ∃ name', name'.text = name ∧ c = .mk name' e := by
  cases c with
  | unread fault => simp [find?]
  | mk name' e' =>
    simp only [find?, Option.ite_none_right_eq_some, Option.some.injEq, mk.injEq]
    exact ⟨fun ⟨hn, he⟩ => ⟨name', hn, rfl, he⟩, fun ⟨_, hn, heq, he⟩ => ⟨heq ▸ hn, he⟩⟩

end Child

namespace Directory

variable {d : Directory} {name : SystemText} {e : Entry}

private theorem exists_mem_of_child? (h : d.child? name = some e) :
    ∃ name', name'.text = name ∧ .mk name' e ∈ d.children := by
  obtain ⟨c, hc, hf⟩ := List.exists_of_findSome?_eq_some h
  obtain ⟨name', hn, rfl⟩ := Child.find?_eq_some_iff.mp hf
  exact ⟨name', hn, hc⟩

theorem isTree_of_child? (ht : d.isTree = true) (h : d.child? name = some e) : e.isTree = true := by
  obtain ⟨access, children⟩ := d
  obtain ⟨name', -, hm⟩ := exists_mem_of_child? h
  exact Child.isTree_of_mem ht hm

private theorem isTree_inner (ht : d.isTree = true) (name : FileName) : (d.inner name).isTree = true := by
  rw [inner]
  split
  · rename_i h
    exact isTree_of_child? ht h
  · rfl

/-- Puts an entry at the place that the names lead to, in directories that are made as needed. -/
def put (e : Entry) : List FileName → Directory → Directory
  | [], d =>
    match e with
    | .directory d' => d'
    | _ => d
  | [name], .mk access children => .mk access (Child.replace name e children)
  | name :: next :: names, .mk access children =>
    .mk access (Child.replace name
      (.directory (put e (next :: names) ((mk access children).inner name))) children)

private theorem isTree_put (he : e.isTree = true) (names : List FileName) (ht : d.isTree = true) :
    (d.put e names).isTree = true := by
  fun_induction put e names d with
  | case1 =>
    subst e
    exact he
  | case2 d => exact ht
  | case3 name access children => exact Child.areTree_replace he ht
  | case4 name next names access children ih =>
    exact Child.areTree_replace (ih (isTree_inner ht name)) ht

end Directory

/-- A directory in which all are trees. -/
structure Tree where
  root : Directory
  isTree : root.isTree = true

namespace Tree

def empty : Tree :=
  ⟨.of [], rfl⟩

/-- The tree with a file or the like at the place that the names lead to. -/
def put (t : Tree) (names : List FileName) (e : {e : Entry // e.isTree = true}) : Tree :=
  ⟨t.root.put e.val names, Directory.isTree_put e.property names t.isTree⟩

def entry (t : Tree) : {e : Entry // e.isTree = true} :=
  ⟨.directory t.root, t.isTree⟩

/-- The tree whose first directory allows only so much. -/
def withAccess (t : Tree) (access : Access) : Tree :=
  match t with
  | ⟨.mk _ children, h⟩ => ⟨.mk access children, h⟩

end Tree

end SideEffectLint
