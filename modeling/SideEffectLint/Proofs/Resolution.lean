import SideEffectLint.Proofs.Walk

/-! Where a joined path leads: to what has the name in the directory that the path leads to. Links on the
way are followed once and for all, as parts that come behind change nothing about what is before them. -/

namespace SideEffectLint

namespace Path

/-- A name that is joined comes in the place of the empty part behind a slash, if there is one. -/
theorem parts_join {base : SystemText} (hb : base.bytes ≠ []) (name : FileName) :
    ∃ front behind, parts base = front ++ behind ∧ (behind = [] ∨ behind = [SystemText.ofString ""]) ∧
      parts (join base name.text) = front ++ [name.text] := by
  rw [name.join_text, separator]
  split
  · rename_i hs
    obtain ⟨front, rfl⟩ := exists_eq_append_slash (hs.resolve_left hb)
    have hslash := parts_append_slash front ""
    rw [SystemText.append_empty] at hslash
    refine ⟨parts front, [SystemText.ofString ""], hslash, .inr rfl, ?_⟩
    rw [SystemText.append_empty, parts_append_slash, name.parts_text]
  · refine ⟨parts base, [], (List.append_nil _).symm, .inl rfl, ?_⟩
    rw [parts_append_slash, name.parts_text]

end Path

namespace Directory

variable {d : Directory} {name : FileName} {e e' : Entry}

private theorem child?_of_mem (ht : d.isTree = true) (hm : .mk name e ∈ d.children) :
    d.child? name.text = some e := by
  obtain ⟨access, cs⟩ := d
  change Child.areTree cs = true at ht
  change cs.findSome? (Child.find? name.text) = some e
  induction cs with
  | nil => cases hm
  | cons c cs ih =>
    cases c with
    | unread fault =>
      rcases List.mem_cons.mp hm with heq | hm
      · cases heq
      · exact ih hm ht
    | mk name' e' =>
      obtain ⟨hother, -, hcs⟩ := Child.areTree_cons_iff.mp ht
      rcases List.mem_cons.mp hm with heq | hm
      · cases heq
        rw [List.findSome?_cons, Child.find?, if_pos rfl]
      · have hne : name' ≠ name := fun heq => hother _ hm (congrArg some heq.symm)
        rw [List.findSome?_cons, Child.find?, if_neg (mt FileName.text_inj.mp hne)]
        exact ih hm hcs

theorem eq_of_mem (ht : d.isTree = true) (hm : .mk name e ∈ d.children)
    (hm' : .mk name e' ∈ d.children) : e = e' := by
  have h := child?_of_mem ht hm
  rw [child?_of_mem ht hm'] at h
  exact (Option.some.inj h).symm

end Directory

namespace Reach

variable {r r' : Reach} {part : SystemText} {before rest : List SystemText}

theorem follow_nil (r : Reach) : r.follow [] = .ok r.entry := by
  rw [follow]

theorem follow_of_next (h : r.next part = .ok (r', before)) (rest : List SystemText) :
    r.follow (part :: rest) = r'.follow (before ++ rest) := by
  rw [follow]
  split
  · rename_i heq
    rw [h] at heq
    cases heq
    rfl
  · rename_i heq
    rw [h] at heq
    cases heq

private theorem follow_of_fault {fault : FileFault} (h : r.next part = .error fault)
    (rest : List SystemText) : r.follow (part :: rest) = .error fault := by
  rw [follow]
  split
  · rename_i heq
    rw [h] at heq
    cases heq
  · rename_i heq
    rw [h] at heq
    cases heq
    rfl

/-- Following parts reaches something to go on from, or fails whatever comes behind. -/
theorem follow_append (r : Reach) (parts : List SystemText) :
    (∃ r' : Reach, ∀ rest, r.follow (parts ++ rest) = r'.follow rest) ∨
      ∃ fault, ∀ rest, r.follow (parts ++ rest) = .error fault := by
  induction r, parts using follow.induct with
  | case1 r => exact .inl ⟨r, fun _ => rfl⟩
  | case2 r part parts r' before h ih =>
    have hstep (rest : List SystemText) :
        r.follow (part :: (parts ++ rest)) = r'.follow (before ++ parts ++ rest) := by
      rw [follow_of_next h, List.append_assoc]
    simpa only [List.cons_append, hstep] using ih
  | case3 r part parts fault h =>
    exact .inr ⟨fault, fun rest => follow_of_fault h (parts ++ rest)⟩

theorem next_empty {d : Directory} (h : r.entry = .directory d) :
    r.next (SystemText.ofString "") = .ok (r, []) := by
  rw [next, h]
  exact if_pos rfl

private theorem next_of_ne_directory (h : ∀ d, r.entry ≠ .directory d) (part : SystemText) :
    r.next part = .error .notDirectory := by
  rw [next]
  split
  · rename_i d hd
    exact absurd hd (h d)
  · rfl

/-- An empty part is only good for a directory, and leads nowhere from there. -/
theorem entry_of_follow_empty {d : Directory}
    (h : r.follow [SystemText.ofString ""] = .ok (.directory d)) : r.entry = .directory d := by
  by_cases hd : ∃ d', r.entry = .directory d'
  · obtain ⟨d', hd⟩ := hd
    rw [follow_of_next (next_empty hd), List.nil_append, follow_nil] at h
    exact Except.ok.inj h
  · rw [follow_of_fault (next_of_ne_directory (not_exists.mp hd) _)] at h
    cases h

/-- A name is looked up if it can be. -/
theorem next_name {d : Directory} {name : FileName} {e : Entry} (hd : r.entry = .directory d)
    (hs : d.access.search = .ok ()) (hc : d.child? name.text = some e) (hl : ∀ target, e ≠ .link target) :
    r.next name.text = .ok (⟨r.links, d :: r.above, e⟩, []) := by
  obtain ⟨hempty, hdot, hdots, -, -, hlong⟩ := Path.isName_iff.mp name.isName
  rw [next, hd]
  simp only [if_neg hempty, hs, if_neg hdot, if_neg hdots, if_neg (Nat.not_lt.mpr hlong), hc]

/-- All that has been reached are trees. -/
structure AreTrees (r : Reach) : Prop where
  above : ∀ d ∈ r.above, d.isTree = true
  entry : r.entry.isTree = true

theorem AreTrees.start {links : Nat} {above : List Directory} {d : Directory}
    (ha : ∀ d ∈ above, d.isTree = true) (hd : d.isTree = true) (target : SystemText) :
    (start links above d target).AreTrees := by
  unfold Reach.start
  split
  · rename_i root _ hroot
    exact ⟨List.forall_mem_nil _, ha root (List.mem_of_getLast? hroot)⟩
  · exact ⟨ha, hd⟩

theorem AreTrees.next (hr : r.AreTrees) (h : r.next part = .ok (r', before)) : r'.AreTrees := by
  obtain ⟨d, hd, hg⟩ := goesOn_of_next h
  have ht : d.isTree = true := by
    have he := hr.entry
    rwa [hd] at he
  cases hg with
  | stay => exact hr
  | up ha =>
    have habove := hr.above
    rw [ha, List.forall_mem_cons] at habove
    exact ⟨habove.2, habove.1⟩
  | link => exact .start hr.above ht _
  | down hc => exact ⟨List.forall_mem_cons.mpr ⟨ht, hr.above⟩, Directory.isTree_of_child? ht hc⟩

theorem AreTrees.follow {e : Entry} {parts : List SystemText} (hr : r.AreTrees)
    (h : r.follow parts = .ok e) : e.isTree = true := by
  induction r, parts using follow.induct with
  | case1 r =>
    rw [follow_nil] at h
    cases h
    exact hr.entry
  | case2 r part rest r' before hn ih =>
    rw [follow_of_next hn] at h
    exact ih (hr.next hn) h
  | case3 r part rest fault hn =>
    rw [follow_of_fault hn] at h
    cases h

end Reach

namespace FileSystem

variable {fs : FileSystem} {path : SystemText} {d inner : Directory} {name : FileName}
  {names : List FileName} {e : Entry} {skips : String → Bool}

/-- Why a path is not even looked up. -/
def Refused (path : SystemText) : Prop :=
  path.bytes.contains 0 = true ∨ path = "" ∨ maxPathBytes < path.bytes.length

/-- Goes on from the directory that a path is seen from. -/
theorem entry_of_not_refused (h : ¬ Refused path) : fs.entry path =
    (fs.start path).bind fun s => Reach.follow ⟨maxLinks, s.1, .directory s.2⟩ (Path.parts path) := by
  obtain ⟨hn, h⟩ := not_or.mp h
  obtain ⟨he, hs⟩ := not_or.mp h
  rw [entry, if_neg hn, if_neg he, if_neg hs]
  rfl

theorem not_refused_of_entry (h : fs.entry path = .ok e) : ¬ Refused path := by
  unfold entry at h
  split at h
  · cases h
  · rename_i hn
    split at h
    · cases h
    · rename_i he
      split at h
      · cases h
      · rename_i hs
        exact not_or.mpr ⟨hn, not_or.mpr ⟨he, hs⟩⟩

private theorem exists_start_of_entry (h : fs.entry path = .ok e) : ∃ above d,
    fs.start path = .ok (above, d) ∧
      Reach.follow ⟨maxLinks, above, .directory d⟩ (Path.parts path) = .ok e := by
  rw [entry_of_not_refused (not_refused_of_entry h)] at h
  cases hs : fs.start path with
  | error fault =>
    rw [hs] at h
    cases h
  | ok start =>
    rw [hs] at h
    exact ⟨start.1, start.2, rfl, h⟩

private theorem isTree_descend? {above above' : List Directory} (hd : d.isTree = true)
    (ha : ∀ d ∈ above, d.isTree = true) (h : d.descend? above names = some (above', inner)) :
    (∀ d ∈ above', d.isTree = true) ∧ inner.isTree = true := by
  induction names generalizing d above with
  | nil =>
    cases h
    exact ⟨ha, hd⟩
  | cons name names ih =>
    rw [Directory.descend?] at h
    split at h
    · rename_i d' hc
      exact ih (Directory.isTree_of_child? hd hc) (List.forall_mem_cons.mpr ⟨hd, ha⟩) h
    · cases h

private theorem areTrees_start {above : List Directory} (h : fs.start path = .ok (above, d)) :
    (∀ d ∈ above, d.isTree = true) ∧ d.isTree = true := by
  unfold start at h
  split at h
  · cases h
    exact ⟨List.forall_mem_nil _, fs.isTree⟩
  · split at h
    · have hd := Option.eq_some_of_isSome (fs.exists_current _ ‹_›)
      rw [Except.ok.inj h] at hd
      exact isTree_descend? fs.isTree (List.forall_mem_nil _) hd
    · cases h

/-- Whatever a path leads to is a tree. -/
theorem isTree_of_entry (h : fs.entry path = .ok e) : e.isTree = true := by
  obtain ⟨above, d, hs, hf⟩ := exists_start_of_entry h
  obtain ⟨ha, hd⟩ := areTrees_start hs
  have hr : (Reach.mk maxLinks above (.directory d)).AreTrees := ⟨ha, hd⟩
  exact hr.follow hf

private theorem start_join (hp : path.bytes ≠ []) (name : FileName) :
    fs.start (Path.join path name.text) = fs.start path := by
  rw [start, start, Path.isAbsolute_join hp, name.isAbsolute_text, Bool.false_or]

private theorem not_refused_join (hp : ¬ Refused path)
    (hs : ¬ maxPathBytes < (Path.join path name.text).bytes.length) :
    ¬ Refused (Path.join path name.text) := by
  obtain ⟨-, -, -, -, hzero, -⟩ := Path.isName_iff.mp name.isName
  have hsep : 0 ∉ (Path.separator path).bytes := by
    rw [Path.separator]
    split <;> decide
  rintro (hc | he | hl)
  · rw [name.join_text, List.contains_iff_mem, SystemText.bytes_append, SystemText.bytes_append,
      List.mem_append, List.mem_append] at hc
    rcases hc with (hc | hc) | hc
    · exact hp (.inl (List.contains_iff_mem.mpr hc))
    · exact hsep hc
    · exact hzero hc
  · have hb := congrArg SystemText.bytes he
    rw [name.join_text, SystemText.bytes_append] at hb
    exact name.bytes_ne_nil (List.append_eq_nil_iff.mp hb).2
  · exact hs hl

theorem lookUp_eq_ok_iff {access : Access} : access.lookUp path = .ok () ↔
    ¬ maxPathBytes < path.bytes.length ∧ access.search = .ok () := by
  rw [Access.lookUp]
  split <;> simp [*]

/-- Where the path leads to a directory in which something can be looked up, joining a name leads to what
has the name. -/
theorem entry_join (hd : fs.entry path = .ok (.directory d)) (hm : .mk name e ∈ d.children)
    (hl : ∀ target, e ≠ .link target)
    (hk : d.access.lookUp (Path.join path name.text) = .ok ()) :
    fs.entry (Path.join path name.text) = .ok e := by
  have hp := not_refused_of_entry hd
  have hne : path.bytes ≠ [] := fun h => hp (.inr (.inl (SystemText.bytes_inj.mp h)))
  obtain ⟨hlong, hsearch⟩ := lookUp_eq_ok_iff.mp hk
  have hc := Directory.child?_of_mem (isTree_of_entry hd) hm
  obtain ⟨above, d₀, hstart, hfollow⟩ := exists_start_of_entry hd
  obtain ⟨front, behind, hparts, hbehind, hjoin⟩ := Path.parts_join hne name
  rw [entry_of_not_refused (not_refused_join hp hlong), start_join hne, hstart, hjoin]
  change Reach.follow _ (front ++ [name.text]) = _
  rw [hparts] at hfollow
  rcases Reach.follow_append ⟨maxLinks, above, .directory d₀⟩ front with ⟨r, hr⟩ | ⟨fault, hfault⟩
  · have hentry : r.entry = .directory d := by
      rw [hr] at hfollow
      rcases hbehind with rfl | rfl
      · rw [Reach.follow_nil] at hfollow
        exact Except.ok.inj hfollow
      · exact Reach.entry_of_follow_empty hfollow
    rw [hr, Reach.follow_of_next (Reach.next_name hentry hsearch hc hl), List.nil_append,
      Reach.follow_nil]
  · rw [hfault] at hfollow
    cases hfollow

/-- Where nothing keeps the walk from reading on, the paths of directories lead to them. -/
theorem entry_below (hd : fs.entry path = .ok (.directory d)) (hl : d.Legible skips path)
    (h : Enters skips d names inner) : fs.entry (Path.below path names) = .ok (.directory inner) := by
  induction h generalizing path with
  | here => exact hd
  | @inside d d' inner name names hm hs h ih =>
    have hin : Enters skips d [name] d' := .inside hm hs .here
    exact ih (entry_join hd hm nofun (hl.tells [] d name _ .here hm)) (hl.enter hin)

end FileSystem

end SideEffectLint
