import SideEffectLint.Files.Collect
import SideEffectLint.Proofs.Paths

/-! Which files are found on the way down from a directory: the chains of names that lead to source files
through directories, each of them once. They are found just if nothing on the way keeps from reading on. -/

namespace SideEffectLint

namespace SourceFile

/-- A stem, a dot and an extension of source files, but not of a file that only declares types. -/
def IsSource (name : String) : Prop :=
  (¬ ".d.ts".toList <:+ name.toList) ∧
    ∃ stem extension, stem ≠ "" ∧ extension ∈ extensions ∧ name = stem ++ "." ++ extension

private theorem eq_append_of_extension? {name extension : String} (h : extension? name = some extension) :
    ∃ stem, stem ≠ "" ∧ name = stem ++ "." ++ extension := by
  have hsplit := List.takeWhile_append_dropWhile (p := (· != '.')) (l := name.toList.reverse)
  have hhead := List.head?_dropWhile_not (· != '.') name.toList.reverse
  have hlength := congrArg List.length hsplit
  rw [List.length_append, List.length_reverse, String.length_toList] at hlength
  simp only [extension?] at h
  generalize name.toList.reverse.takeWhile (· != '.') = tail at h hsplit hlength
  generalize name.toList.reverse.dropWhile (· != '.') = rest at hsplit hhead hlength
  split at h
  · obtain rfl := Option.some.inj h
    match rest with
    | [] | [_] =>
      simp only [List.length_nil, List.length_singleton] at hlength
      omega
    | c :: d :: stem =>
      obtain rfl : c = '.' := by simpa using hhead
      refine ⟨String.ofList (d :: stem).reverse, by simp, ?_⟩
      rw [← String.toList_inj, ← List.reverse_inj, ← hsplit]
      simp
  · cases h

private theorem extension?_append {stem extension : String} (h : '.' ∉ extension.toList) (hs : stem ≠ "") :
    extension? (stem ++ "." ++ extension) = some extension := by
  have hall : ∀ c ∈ extension.toList.reverse, (c != '.') = true := by
    intro c hc
    rw [bne_iff_ne]
    rintro rfl
    exact h (List.mem_reverse.mp hc)
  have htail : (stem ++ "." ++ extension).toList.reverse.takeWhile (· != '.') =
      extension.toList.reverse := by
    rw [String.toList_append, String.toList_append, List.reverse_append, List.reverse_append,
      List.takeWhile_append_of_pos hall]
    exact List.append_nil _
  have hlength : 0 < stem.toList.length :=
    List.length_pos_iff.mpr (mt String.toList_eq_nil_iff.mp hs)
  rw [extension?, htail, if_pos]
  · simp
  · rw [← String.length_toList]
    simp only [String.toList_append, List.length_append, List.length_reverse]
    change _ < stem.toList.length + 1 + extension.toList.length
    omega

private theorem extension?_eq_some_iff {name extension : String} (h : '.' ∉ extension.toList) :
    extension? name = some extension ↔ ∃ stem, stem ≠ "" ∧ name = stem ++ "." ++ extension := by
  refine ⟨eq_append_of_extension?, ?_⟩
  rintro ⟨stem, hs, rfl⟩
  exact extension?_append h hs

private theorem endsWith_iff {text ending : String} :
    text.endsWith ending ↔ ending.toList <:+ text.toList := by
  rw [← String.endsWith_toSlice, String.Slice.endsWith_string_iff, String.copy_toSlice]

private theorem isSupported_iff {name : String} : isSupported name ↔ IsSource name := by
  have hdot : ∀ extension ∈ extensions, '.' ∉ extension.toList := by decide
  rw [isSupported, Bool.and_eq_true, Bool.not_eq_true', ← Bool.not_eq_true, endsWith_iff,
    Option.any_eq_true, IsSource]
  refine and_congr_right fun _ => ⟨?_, ?_⟩
  · rintro ⟨extension, hx, hmem⟩
    have hmem : extension ∈ extensions := List.contains_iff_mem.mp hmem
    obtain ⟨stem, hs, hn⟩ := (extension?_eq_some_iff (hdot _ hmem)).mp hx
    exact ⟨stem, extension, hs, hmem, hn⟩
  · rintro ⟨stem, extension, hs, hmem, hn⟩
    exact ⟨extension, (extension?_eq_some_iff (hdot _ hmem)).mpr ⟨stem, hs, hn⟩,
      List.contains_iff_mem.mpr hmem⟩

end SourceFile

/-- Directories with such a name are passed over. -/
def IsSkippedName (text : String) : Prop :=
  text.toList.head? = some '.' ∨ text ∈ ["node_modules", "dist", "build", "coverage"]

private theorem isSkippedDirectory_iff {text : String} : isSkippedDirectory text ↔ IsSkippedName text := by
  rw [isSkippedDirectory, Bool.or_eq_true, String.startsWith_string_iff, List.contains_iff_mem,
    IsSkippedName]
  cases text.toList <;> simp [List.cons_prefix_cons, eq_comm]

namespace FileName

variable {name : FileName}

/-- The name is a text, and the text is one of those. -/
def Is (p : String → Prop) (name : FileName) : Prop :=
  ∃ text, name.text = .ofString text ∧ p text

theorem isAmong_iff {p : String → Bool} : name.isAmong p ↔ name.Is (p · = true) := by
  simp only [isAmong, Option.any_eq_true, SystemText.text?_eq_some_iff, Is]

theorem isAmong_isSkippedDirectory_iff : name.isAmong isSkippedDirectory ↔ name.Is IsSkippedName := by
  simp only [isAmong_iff, isSkippedDirectory_iff]

theorem isAmong_isSupported_iff :
    name.isAmong SourceFile.isSupported ↔ name.Is SourceFile.IsSource := by
  simp only [isAmong_iff, SourceFile.isSupported_iff]

end FileName

/-- The names lead to the entry, from one directory into the next. No link is followed. -/
inductive LeadsTo : Directory → List FileName → Entry → Prop
  | last {d : Directory} {name : FileName} {e : Entry} : .mk name e ∈ d.children → LeadsTo d [name] e
  | inside {d d' : Directory} {name : FileName} {names : List FileName} {e : Entry} :
    .mk name (.directory d') ∈ d.children → LeadsTo d' names e → LeadsTo d (name :: names) e

/-- The walk through a directory enters another one, by names that are not passed over. -/
inductive Enters (skips : String → Bool) : Directory → List FileName → Directory → Prop
  | here {d : Directory} : Enters skips d [] d
  | inside {d d' inner : Directory} {name : FileName} {names : List FileName}
    (hm : .mk name (.directory d') ∈ d.children) (hs : ¬ name.isAmong skips)
    (h : Enters skips d' names inner) : Enters skips d (name :: names) inner

/-- Nothing keeps the walk through a directory from reading on: what it enters can be listed to the end,
and what is listed can be looked up by its path. -/
structure Directory.Legible (skips : String → Bool) (path : SystemText) (d : Directory) : Prop where
  lists : ∀ names inner, Enters skips d names inner → inner.access.list = .ok ()
  reads : ∀ names inner fault, Enters skips d names inner → .unread fault ∉ inner.children
  tells : ∀ names inner name e, Enters skips d names inner → .mk name e ∈ inner.children →
    inner.access.lookUp (Path.below path (names ++ [name])) = .ok ()

section

variable {skips : String → Bool} {d d' inner : Directory} {path : SystemText} {name : FileName}
  {names more : List FileName} {e : Entry}

namespace Enters

theorem append (h : Enters skips d names d') (h' : Enters skips d' more inner) :
    Enters skips d (names ++ more) inner := by
  induction h with
  | here => exact h'
  | inside hm hs _ ih => exact .inside hm hs (ih h')

theorem isTree (h : Enters skips d names inner) (ht : d.isTree = true) : inner.isTree = true := by
  induction h with
  | here => exact ht
  | @inside d _ _ _ _ hm _ _ ih =>
    cases d
    exact ih (Child.isTree_of_mem ht hm)

theorem leadsTo (h : Enters skips d names inner) (hm : .mk name e ∈ inner.children) :
    LeadsTo d (names ++ [name]) e ∧ ∀ directory ∈ names, ¬ directory.isAmong skips := by
  induction h with
  | here => exact ⟨.last hm, List.forall_mem_nil _⟩
  | inside hm' hs _ ih =>
    obtain ⟨hl, hall⟩ := ih hm
    exact ⟨.inside hm' hl, List.forall_mem_cons.mpr ⟨hs, hall⟩⟩

end Enters

theorem LeadsTo.exists_enters (h : LeadsTo d (names ++ [name]) e)
    (hs : ∀ directory ∈ names, ¬ directory.isAmong skips) :
    ∃ inner, Enters skips d names inner ∧ .mk name e ∈ inner.children := by
  induction names generalizing d with
  | nil =>
    obtain ⟨hm⟩ | ⟨-, h⟩ := h
    · exact ⟨d, .here, hm⟩
    · cases h
  | cons directory names ih =>
    obtain ⟨hdirectory, hs⟩ := List.forall_mem_cons.mp hs
    generalize hnames : directory :: names ++ [name] = all at h
    cases h with
    | last => simp at hnames
    | inside hm h =>
      obtain ⟨rfl, rfl⟩ := List.cons.inj hnames
      obtain ⟨inner, hi, hm'⟩ := ih h hs
      exact ⟨inner, .inside hm hdirectory hi, hm'⟩

/-- Nothing keeps the walk from reading on at what stands for the name. -/
def Entry.Legible (skips : String → Bool) (path : SystemText) (name : FileName) (e : Entry) : Prop :=
  ∀ d, e = .directory d → ¬ name.isAmong skips → d.Legible skips path

def Child.Legible (skips : String → Bool) (directory : SystemText) (access : Access) : Child → Prop
  | mk name e => access.lookUp (Path.join directory name.text) = .ok () ∧
    e.Legible skips (Path.join directory name.text) name
  | unread _ => False

/-- A directory is legible if it can be listed and all its items are. -/
theorem Directory.legible_iff {access : Access} {cs : List Child} :
    (mk access cs).Legible skips path ↔
      access.list = .ok () ∧ ∀ c ∈ cs, c.Legible skips path access := by
  constructor
  · rintro ⟨hl, hr, ht⟩
    refine ⟨hl [] _ .here, fun c hc => ?_⟩
    cases c with
    | unread fault => exact hr [] _ fault .here hc
    | mk name e =>
      refine ⟨ht [] _ name e .here hc, ?_⟩
      rintro d rfl hs
      exact ⟨fun names inner h => hl _ _ (.inside hc hs h),
        fun names inner fault h => hr _ _ fault (.inside hc hs h),
        fun names inner name e h => ht _ _ name e (.inside hc hs h)⟩
  · rintro ⟨hlist, hall⟩
    have hitem {name : FileName} {e : Entry} (hm : .mk name e ∈ cs) :
        (Child.mk name e).Legible skips path access :=
      hall _ hm
    have hinside {name : FileName} {d : Directory} (hm : .mk name (.directory d) ∈ cs)
        (hs : ¬ name.isAmong skips) : d.Legible skips (Path.join path name.text) :=
      (hitem hm).2 d rfl hs
    refine ⟨?_, ?_, ?_⟩
    · rintro names inner (_ | ⟨hm, hs, h⟩)
      · exact hlist
      · exact (hinside hm hs).lists _ _ h
    · rintro names inner fault (_ | ⟨hm, hs, h⟩) hu
      · exact hall _ hu
      · exact (hinside hm hs).reads _ _ fault h hu
    · rintro names inner name e (_ | ⟨hm, hs, h⟩) hm'
      · exact (hitem hm').1
      · exact (hinside hm hs).tells _ _ name e h hm'

theorem Directory.Legible.enter (h : d.Legible skips path) (he : Enters skips d names inner) :
    inner.Legible skips (Path.below path names) where
  lists := fun _ _ h' => h.lists _ _ (he.append h')
  reads := fun _ _ fault h' => h.reads _ _ fault (he.append h')
  tells := fun more _ name e h' hm => by
    have htell := h.tells _ _ name e (he.append h') hm
    rwa [List.append_assoc, Path.below_append] at htell

end

section

variable (skips : String → Bool)

mutual

/-- The names that lead to source files, in the order in which those are found. -/
def Entry.chains (name : FileName) : Entry → List (List FileName)
  | .file _ => if name.isAmong SourceFile.isSupported then [[name]] else []
  | .directory d => if name.isAmong skips then [] else d.chains.map (name :: ·)
  | .link _ | .special _ => []

def Directory.chains : Directory → List (List FileName)
  | .mk _ children => Child.chains children

def Child.chains : List Child → List (List FileName)
  | [] => []
  | .unread _ :: cs => Child.chains cs
  | .mk name e :: cs => e.chains name ++ Child.chains cs

end

private theorem ok_eq_ok_iff {α ε : Type} {a b : α} : (Except.ok a : Except ε α) = .ok b ↔ b = a := by
  rw [Except.ok.injEq, eq_comm]

private theorem Entry.legible_of_ne_directory {e : Entry} (h : ∀ d, e ≠ .directory d) (path : SystemText)
    (name : FileName) : e.Legible skips path name :=
  fun d hd _ => absurd hd (h d)

private theorem Child.sources_cons_eq_ok_iff {name : FileName} {e : Entry} {cs : List Child}
    {path : SystemText} {access : Access} {files : List SystemText} :
    Child.sources skips path access (.mk name e :: cs) = .ok files ↔
      access.lookUp (Path.join path name.text) = .ok () ∧ ∃ first rest,
        e.sources skips (Path.join path name.text) name = .ok first ∧
        Child.sources skips path access cs = .ok rest ∧ files = first ++ rest := by
  rw [Child.sources]
  cases access.lookUp (Path.join path name.text) with
  | error fault => simp [Except.mapError, bind, Except.bind]
  | ok =>
    cases e.sources skips (Path.join path name.text) name with
    | error fault => simp [Except.mapError, bind, Except.bind]
    | ok first =>
      cases Child.sources skips path access cs with
      | error fault => simp [Except.mapError, bind, Except.bind]
      | ok rest => simp [Except.mapError, bind, Except.bind, pure, Except.pure, eq_comm]

mutual

/-- A walk gives the files that the chains lead to if all is legible, and else a fault. -/
theorem Entry.sources_eq_ok_iff : ∀ (e : Entry) {directory : SystemText} {name : FileName}
    {files : List SystemText},
    e.sources skips (Path.join directory name.text) name = .ok files ↔
      e.Legible skips (Path.join directory name.text) name ∧
        files = (e.chains skips name).map (Path.below directory)
  | .file _, directory, name, files => by
    rw [Entry.sources, Entry.chains, ok_eq_ok_iff,
      and_iff_right (Entry.legible_of_ne_directory skips (by simp) _ _)]
    split <;> rfl
  | .directory d, directory, name, files => by
    rw [Entry.sources, Entry.chains]
    split
    · rename_i hs
      have hl : (Entry.directory d).Legible skips (Path.join directory name.text) name :=
        fun _ _ hn => absurd hs hn
      rw [ok_eq_ok_iff, List.map_nil, and_iff_right hl]
    · rename_i hs
      rw [d.sources_eq_ok_iff, List.map_map]
      refine and_congr_left' ⟨fun h d' hd _ => ?_, fun h => h d rfl hs⟩
      cases hd
      exact h
  | .link _, directory, name, files | .special _, directory, name, files => by
    rw [Entry.sources, Entry.chains, ok_eq_ok_iff, List.map_nil,
      and_iff_right (Entry.legible_of_ne_directory skips (by simp) _ _)]

theorem Directory.sources_eq_ok_iff : ∀ (d : Directory) {path : SystemText}
    {files : List SystemText}, d.sources skips path = .ok files ↔
      d.Legible skips path ∧ files = (d.chains skips).map (Path.below path)
  | .mk access children, path, files => by
    rw [Directory.legible_iff, Directory.chains, and_assoc,
      ← Child.sources_eq_ok_iff children, Directory.sources]
    cases access.list with
    | error fault => simp [Except.mapError, bind, Except.bind]
    | ok => simp [Except.mapError, bind, Except.bind]

theorem Child.sources_eq_ok_iff : ∀ (cs : List Child) {path : SystemText} {access : Access}
    {files : List SystemText}, Child.sources skips path access cs = .ok files ↔
      (∀ c ∈ cs, c.Legible skips path access) ∧
        files = (Child.chains skips cs).map (Path.below path)
  | [], path, access, files => by
    rw [Child.sources, Child.chains, ok_eq_ok_iff, List.map_nil, and_iff_right (List.forall_mem_nil _)]
  | .unread fault :: cs, path, access, files => by
    simp [Child.sources, Child.Legible]
  | .mk name e :: cs, path, access, files => by
    rw [Child.sources_cons_eq_ok_iff, Child.chains, List.forall_mem_cons, List.map_append,
      Child.Legible]
    simp only [e.sources_eq_ok_iff, Child.sources_eq_ok_iff cs]
    constructor
    · rintro ⟨hl, _, _, ⟨he, rfl⟩, ⟨hcs, rfl⟩, rfl⟩
      exact ⟨⟨⟨hl, he⟩, hcs⟩, rfl⟩
    · rintro ⟨⟨⟨hl, he⟩, hcs⟩, rfl⟩
      exact ⟨hl, _, _, ⟨he, rfl⟩, ⟨hcs, rfl⟩, rfl⟩

end

end

section

variable {skips : String → Bool} {d : Directory} {cs : List Child} {name : FileName}
  {names : List FileName} {e : Entry}

theorem Child.mem_chains_iff : names ∈ Child.chains skips cs ↔
    ∃ name e, .mk name e ∈ cs ∧ names ∈ e.chains skips name := by
  induction cs with
  | nil => simp [Child.chains]
  | cons c cs ih =>
    cases c with
    | unread fault => simp [Child.chains, ih]
    | mk name e =>
      rw [Child.chains, List.mem_append, ih]
      constructor
      · rintro (h | ⟨name', e', hm, h⟩)
        · exact ⟨name, e, List.mem_cons_self, h⟩
        · exact ⟨name', e', List.mem_cons_of_mem _ hm, h⟩
      · rintro ⟨name', e', hm, h⟩
        rcases List.mem_cons.mp hm with heq | hm
        · cases heq
          exact .inl h
        · exact .inr ⟨name', e', hm, h⟩

theorem Entry.mem_chains_iff : names ∈ e.chains skips name ↔
    (∃ content, e = .file content ∧ name.isAmong SourceFile.isSupported ∧ names = [name]) ∨
      ∃ d names', e = .directory d ∧ ¬ name.isAmong skips ∧ names' ∈ d.chains skips ∧
        names = name :: names' := by
  cases e with
  | file content =>
    rw [Entry.chains]
    split <;> simp [*]
  | directory d =>
    rw [Entry.chains]
    split
    · simp [*]
    · simp [*, eq_comm (a := names)]
  | link | special => simp [Entry.chains]

theorem Directory.mem_chains_of_enters {inner : Directory} {content : Except FileFault ByteArray}
    (h : Enters skips d names inner) (hm : .mk name (.file content) ∈ inner.children)
    (hs : name.isAmong SourceFile.isSupported) : names ++ [name] ∈ d.chains skips := by
  induction h with
  | @here d =>
    cases d
    exact Child.mem_chains_iff.mpr
      ⟨name, _, hm, Entry.mem_chains_iff.mpr (.inl ⟨content, rfl, hs, rfl⟩)⟩
  | @inside d d' _ first _ hm' hs' _ ih =>
    cases d
    exact Child.mem_chains_iff.mpr
      ⟨first, _, hm', Entry.mem_chains_iff.mpr (.inr ⟨d', _, rfl, hs', ih hm, rfl⟩)⟩

theorem Directory.mem_chains_iff : names ∈ d.chains skips ↔ ∃ above inner name content,
    names = above ++ [name] ∧ Enters skips d above inner ∧
      .mk name (.file content) ∈ inner.children ∧ name.isAmong SourceFile.isSupported := by
  constructor
  · intro h
    induction names generalizing d with
    | nil =>
      obtain ⟨access, cs⟩ := d
      obtain ⟨name, e, -, h⟩ := Child.mem_chains_iff.mp h
      rcases Entry.mem_chains_iff.mp h with ⟨_, -, -, h⟩ | ⟨_, _, -, -, -, h⟩ <;> cases h
    | cons first names ih =>
      obtain ⟨access, cs⟩ := d
      obtain ⟨name, e, hm, h⟩ := Child.mem_chains_iff.mp h
      rcases Entry.mem_chains_iff.mp h with ⟨content, rfl, hs, heq⟩ | ⟨d, names', rfl, hs, hn, heq⟩
      · cases heq
        exact ⟨[], _, first, content, rfl, .here, hm, hs⟩
      · cases heq
        obtain ⟨above, inner, name, content, rfl, he, hm', hs'⟩ := ih hn
        exact ⟨first :: above, inner, name, content, rfl, .inside hm hs he, hm', hs'⟩
  · rintro ⟨above, inner, name, content, rfl, he, hm, hs⟩
    exact mem_chains_of_enters he hm hs

theorem Entry.exists_eq_cons_of_mem_chains (h : names ∈ e.chains skips name) :
    ∃ names', names = name :: names' := by
  rcases mem_chains_iff.mp h with ⟨_, -, -, h⟩ | ⟨_, names', -, -, -, h⟩
  · exact ⟨[], h⟩
  · exact ⟨names', h⟩

variable (skips)

mutual

private theorem Entry.nodup_chains : ∀ (e : Entry) (name : FileName), e.isTree = true →
    (e.chains skips name).Nodup
  | .file _, _, _ => by
    rw [Entry.chains]
    split <;> simp
  | .directory d, name, h => by
    rw [Entry.chains]
    split
    · exact List.nodup_nil
    · exact (d.nodup_chains h).map fun _ _ he => (List.cons.inj he).2
  | .link _, _, _ | .special _, _, _ => List.nodup_nil

private theorem Directory.nodup_chains : ∀ d : Directory, d.isTree = true → (d.chains skips).Nodup
  | .mk _ children, h => Child.nodup_chains children h

private theorem Child.nodup_chains : ∀ cs : List Child, Child.areTree cs = true →
    (Child.chains skips cs).Nodup
  | [], _ => List.nodup_nil
  | .unread _ :: cs, h => Child.nodup_chains cs h
  | .mk name e :: cs, h => by
    obtain ⟨hne, he, hcs⟩ := Child.areTree_cons_iff.mp h
    rw [Child.chains]
    refine (e.nodup_chains name he).append (Child.nodup_chains cs hcs) ?_
    intro names hn hn'
    obtain ⟨names', rfl⟩ := Entry.exists_eq_cons_of_mem_chains hn
    obtain ⟨name', e', hm, hn'⟩ := Child.mem_chains_iff.mp hn'
    obtain ⟨_, heq⟩ := Entry.exists_eq_cons_of_mem_chains hn'
    refine hne _ hm ?_
    rw [Child.name?, (List.cons.inj heq).1]

end

/-- The paths of different files have different components. -/
theorem Directory.nodup_components (ht : d.isTree = true) (path : SystemText) :
    (((d.chains skips).map (Path.below path)).map Path.components).Nodup := by
  rw [List.map_map]
  exact (d.nodup_chains skips ht).map (Path.components_below_injective path)

end

end SideEffectLint
