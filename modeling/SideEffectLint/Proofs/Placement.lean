import Mathlib.Data.List.Perm.Basic
import SideEffectLint.Proofs.Traversal

/-! Trees whose places are nested and in the order of the text. The leaves of a body do not overlap
in them, and come in the order of the text unless a switch has a test behind statements. -/

namespace SideEffectLint

namespace Span

/-- An extent inside of another one. -/
structure Within (inner outer : Span) : Prop where
  start_le : outer.start ≤ inner.start
  start_le_stop : inner.start ≤ inner.stop
  le_stop : inner.stop ≤ outer.stop

def Before (a b : Span) : Prop :=
  a.stop ≤ b.start

def Apart (a b : Span) : Prop :=
  a.Before b ∨ b.Before a

/-- The parts of a whole lie inside of it and one after the other. -/
structure Holds (whole : Span) (parts : List Span) : Prop where
  within : ∀ part ∈ parts, part.Within whole
  inOrder : parts.Pairwise Before

variable {a b c : Span}

instance : Decidable (a.Within b) :=
  decidable_of_iff (b.start ≤ a.start ∧ a.start ≤ a.stop ∧ a.stop ≤ b.stop)
    ⟨fun h => ⟨h.1, h.2.1, h.2.2⟩, fun h => ⟨h.1, h.2, h.3⟩⟩

instance : Decidable (a.Before b) :=
  inferInstanceAs (Decidable (a.stop ≤ b.start))

instance {whole : Span} {parts : List Span} : Decidable (whole.Holds parts) :=
  decidable_of_iff ((∀ part ∈ parts, part.Within whole) ∧ parts.Pairwise Before)
    ⟨fun h => ⟨h.1, h.2⟩, fun h => ⟨h.1, h.2⟩⟩

theorem within_self (h : a.start ≤ a.stop) : a.Within a :=
  ⟨Nat.le_refl _, h, Nat.le_refl _⟩

theorem Within.trans (h : a.Within b) (h' : b.Within c) : a.Within c where
  start_le := Nat.le_trans h'.start_le h.start_le
  start_le_stop := h.start_le_stop
  le_stop := Nat.le_trans h.le_stop h'.le_stop

theorem Apart.symm (h : a.Apart b) : b.Apart a :=
  Or.symm h

/-- What holds of two extents holds of all that is inside of the one and all that is inside of the
other. -/
def Hereditary (R : Span → Span → Prop) : Prop :=
  ∀ {a b inA inB : Span}, R a b → inA.Within a → inB.Within b → R inA inB

theorem hereditary_before : Hereditary Before := by
  intro a b inA inB h ha hb
  exact Nat.le_trans ha.le_stop (Nat.le_trans h hb.start_le)

private theorem hereditary_apart : Hereditary Apart := by
  rintro a b inA inB (h | h) ha hb
  · exact .inl (hereditary_before h ha hb)
  · exact .inr (hereditary_before h hb ha)

end Span

def ModuleItem.span : ModuleItem → Span
  | .stmt s => s.span
  | .exportDecl span _ | .exportDefaultFunction span .. | .other span _ => span

def Declarator.span : Declarator → Span
  | .mk span _ _ => span

def Case.inText : Case → List Node
  | .mk _ test statements => test.toList.map .expr ++ statements.map .stmt

/-- What a node is opened into, in the order of the text: a test stands before the statements of its
case and behind those of the cases before it. -/
def Node.inText : Node → List Node
  | .stmt (.switch _ subject cases) => .expr subject :: cases.flatMap Case.inText
  | n => n.children?.getD []

/-- A body as a node like those in it. -/
def Body.node : Body → Node
  | .block span statements => .stmt (.block span statements)
  | .expr e => .expr e

/-- A piece of a module. -/
inductive Site where
  | item (value : ModuleItem)
  | declarator (value : Declarator)
  | node (value : Node)

namespace Site

def span : Site → Span
  | item i => i.span
  | declarator d => d.span
  | node n => n.span

/-- The parts in which the lint may find something, in the order of the text. -/
def parts : Site → List Site
  | item (.stmt s) | item (.exportDecl _ s) => [node (.stmt s)]
  | item (.exportDefaultFunction _ _ _ (.block bodySpan statements)) =>
    [node (Body.block bodySpan statements).node]
  | item (.exportDefaultFunction _ _ _ .missing) | item (.other ..) => []
  | declarator (.mk _ _ init) => init.toList.map fun e => node (.expr e)
  | node (.stmt (.function _ _ _ (.block bodySpan statements))) =>
    [node (Body.block bodySpan statements).node]
  | node (.stmt (.bindings _ declarators)) => declarators.map declarator
  | node (.expr (.paren _ e)) | node (.expr (.typed _ _ e _))
  | node (.expr (.assign _ _ (.expr e) _)) => [node (.expr e)]
  | node (.expr (.arrow _ _ body)) => [node body.node]
  | node n => n.inText.map node

/-- A statement that the lint opens. -/
def IsWrapper : Site → Prop
  | node n => n.children? ≠ none
  | item _ | declarator _ => False

/-- One site is the other or a part of it at some depth. -/
inductive Inside : Site → Site → Prop
  | here {site : Site} : Inside site site
  | part {site part inner : Site} (hp : part ∈ site.parts) (hi : Inside inner part) :
    Inside inner site

theorem Inside.trans {a b c : Site} (h : a.Inside b) (h' : b.Inside c) : a.Inside c := by
  induction h' with
  | here => exact h
  | part hp _ ih => exact .part hp (ih h)

end Site

/-- An extent for every site. It is the span but for statements that the lint opens, which may have
any. -/
structure Extents where
  place : Site → Span
  place_eq : ∀ site, ¬ site.IsWrapper → place site = site.span

theorem Extents.place_of_leaf (x : Extents) {n : Node} (h : n.children? = none) :
    x.place (.node n) = n.span :=
  x.place_eq (.node n) fun hw => hw h

/-- Every site extends over its span. -/
def Extents.ofSpans : Extents :=
  ⟨Site.span, fun _ _ => rfl⟩

mutual

/-- Where a statement ends with the alternate that it may have. -/
def Stmt.stopWithAlternate : Stmt → Nat
  | .conditional span _ _ no => alternateStop span.stop no
  | s => s.span.stop

def alternateStop (stop : Nat) : Option Stmt → Nat
  | none => stop
  | some s => s.stopWithAlternate

end

/-- Every `if` reaches to the end of its alternate. The span that is read for one behind an `else`
ends before its own `else`. -/
def Extents.withAlternates : Extents where
  place
    | .node (.stmt s) => ⟨s.span.start, s.stopWithAlternate⟩
    | site => site.span
  place_eq site hw := by
    cases site with
    | item | declarator => rfl
    | node n =>
      cases n with
      | expr => rfl
      | stmt s =>
        cases s with
        | conditional => exact absurd (Option.some_ne_none _) hw
        | _ => rfl

/-- At every depth the parts lie inside of the whole and one after the other. -/
inductive Site.WellPlaced (x : Extents) : Site → Prop
  | intro {site : Site} (holds : (x.place site).Holds (site.parts.map x.place))
    (parts : ∀ part ∈ site.parts, part.WellPlaced x) : site.WellPlaced x

/-- Checks that a site is well placed, when it is no deeper than that. -/
def Site.isWellPlaced (x : Extents) : Nat → Site → Bool
  | 0, _ => false
  | depth + 1, site =>
    decide ((x.place site).Holds (site.parts.map x.place)) && site.parts.all (isWellPlaced x depth)

namespace Site.WellPlaced

variable {x : Extents} {site part inner : Site} {outer : Span}

theorem of_isWellPlaced {depth : Nat} (h : site.isWellPlaced x depth) : site.WellPlaced x := by
  induction depth generalizing site with
  | zero => cases h
  | succ depth ih =>
    rw [isWellPlaced, Bool.and_eq_true, decide_eq_true_iff, List.all_eq_true] at h
    exact .intro h.1 fun part hp => ih (h.2 part hp)

theorem of_part (h : site.WellPlaced x) (hp : part ∈ site.parts) : part.WellPlaced x := by
  cases h with
  | intro _ parts => exact parts part hp

theorem part_within (h : site.WellPlaced x) (hp : part ∈ site.parts) :
    (x.place part).Within (x.place site) := by
  cases h with
  | intro holds _ => exact holds.within _ (List.mem_map_of_mem hp)

theorem pairwise_parts (h : site.WellPlaced x) : (site.parts.map x.place).Pairwise Span.Before := by
  cases h with
  | intro holds _ => exact holds.inOrder

theorem of_inside (hi : inner.Inside site) (h : site.WellPlaced x) : inner.WellPlaced x := by
  induction hi with
  | here => exact h
  | part hp _ ih => exact ih (h.of_part hp)

theorem within_of_inside (hi : inner.Inside site) (h : site.WellPlaced x)
    (ho : (x.place site).Within outer) : (x.place inner).Within outer := by
  induction hi with
  | here => exact ho
  | part hp _ ih => exact ih (h.of_part hp) ((h.part_within hp).trans ho)

end Site.WellPlaced

/-- No case with a test stands behind one with statements. -/
def TestsFirst (cases : List Case) : Prop :=
  cases.Pairwise fun c d => c.statements ≠ [] → d.test? = none

instance {cases : List Case} : Decidable (TestsFirst cases) :=
  inferInstanceAs (Decidable (cases.Pairwise fun c d => c.statements ≠ [] → d.test? = none))

private theorem tests_cons (c : Case) (cs : List Case) :
    ((c :: cs).filterMap Case.test?).map Node.expr =
      c.test?.toList.map Node.expr ++ (cs.filterMap Case.test?).map Node.expr := by
  obtain ⟨span, test, statements⟩ := c
  cases test <;> rfl

private theorem statements_cons (c : Case) (cs : List Case) :
    ((c :: cs).flatMap Case.statements).map Node.stmt =
      c.statements.map Node.stmt ++ (cs.flatMap Case.statements).map Node.stmt := by
  rw [List.flatMap_cons, List.map_append]

private theorem inText_eq (c : Case) :
    c.inText = c.test?.toList.map Node.expr ++ c.statements.map Node.stmt := by
  cases c
  rfl

/-- A switch is opened into what stands in its cases, in another order. -/
theorem tests_append_statements_perm (cs : List Case) :
    ((cs.filterMap Case.test?).map Node.expr ++ (cs.flatMap Case.statements).map Node.stmt).Perm
      (cs.flatMap Case.inText) := by
  induction cs with
  | nil => exact .refl _
  | cons c cs ih =>
    rw [tests_cons, statements_cons, List.flatMap_cons, inText_eq, List.append_assoc,
      List.append_assoc]
    apply List.Perm.append_left
    exact (List.perm_append_comm_assoc ..).trans (ih.append_left _)

private theorem tests_append_statements_eq {cs : List Case} (h : TestsFirst cs) :
    (cs.filterMap Case.test?).map Node.expr ++ (cs.flatMap Case.statements).map Node.stmt =
      cs.flatMap Case.inText := by
  induction cs with
  | nil => rfl
  | cons c cs ih =>
    obtain ⟨hc, hcs⟩ := List.pairwise_cons.mp h
    rw [tests_cons, statements_cons, List.flatMap_cons, inText_eq, ← ih hcs]
    by_cases hs : c.statements = []
    · simp only [hs, List.map_nil, List.nil_append, List.append_nil, List.append_assoc]
    · -- Behind the statements there are no more tests to come before them.
      have ht : cs.filterMap Case.test? = [] :=
        List.filterMap_eq_nil_iff.mpr fun d hd => hc d hd hs
      simp only [ht, List.map_nil, List.nil_append, List.append_nil, List.append_assoc]

namespace Node

variable {n m : Node} {ns : List Node}

private theorem children_perm_inText (h : n.children? = some ns) : ns.Perm n.inText := by
  match n, h with
  | stmt (.switch _ subject cases), h =>
    obtain rfl := Option.some.inj h
    exact (tests_append_statements_perm cases).cons (expr subject)
  | stmt (.block ..), h | stmt (.labeled ..), h | stmt (.withObject ..), h
  | stmt (.conditional ..), h | stmt (.expr ..), h =>
    obtain rfl := Option.some.inj h
    exact .refl _

private theorem children_eq_inText (h : n.children? = some ns)
    (hn : ∀ span subject cases, n = stmt (.switch span subject cases) → TestsFirst cases) :
    ns = n.inText := by
  match n, h with
  | stmt (.switch span subject cases), h =>
    obtain rfl := Option.some.inj h
    exact congrArg (expr subject :: ·) (tests_append_statements_eq (hn span subject cases rfl))
  | stmt (.block ..), h | stmt (.labeled ..), h | stmt (.withObject ..), h
  | stmt (.conditional ..), h | stmt (.expr ..), h =>
    obtain rfl := Option.some.inj h
    rfl

private theorem parts_of_children (h : n.children? = some ns) :
    (Site.node n).parts = n.inText.map Site.node := by
  match n, h with
  | stmt (.switch ..), _ | stmt (.block ..), _ | stmt (.labeled ..), _ | stmt (.withObject ..), _
  | stmt (.conditional ..), _ | stmt (.expr ..), _ => rfl

private theorem mem_parts_of_children (h : n.children? = some ns) (hm : m ∈ ns) :
    Site.node m ∈ (Site.node n).parts := by
  rw [parts_of_children h]
  exact List.mem_map_of_mem ((children_perm_inText h).mem_iff.mp hm)

/-- The lint comes from the first node to the second by opening nodes. -/
inductive Opens : Node → Node → Prop
  | here {n : Node} : Opens n n
  | child {n m k : Node} {ns : List Node} (h : n.children? = some ns) (hm : m ∈ ns)
    (ho : Opens m k) : Opens n k

/-- The node is no switch that has a test behind statements. -/
def isInOrder : Node → Bool
  | stmt (.switch _ _ cases) => decide (TestsFirst cases)
  | _ => true

/-- Checks every node that is opened, when they are no deeper than that. -/
def opensInOrder : Nat → Node → Bool
  | 0, _ => false
  | depth + 1, n => n.isInOrder && (n.children?.getD []).all (opensInOrder depth)

theorem Opens.testsFirst {depth : Nat} {span : Span} {subject : Expr} {cases : List Case}
    (ho : n.Opens m) (hm : m = stmt (.switch span subject cases)) (h : n.opensInOrder depth) :
    TestsFirst cases := by
  induction ho generalizing depth with
  | here =>
    subst hm
    cases depth with
    | zero => cases h
    | succ depth =>
      rw [opensInOrder, Bool.and_eq_true] at h
      exact of_decide_eq_true h.1
  | child hc hk _ ih =>
    cases depth with
    | zero => cases h
    | succ depth =>
      rw [opensInOrder, Bool.and_eq_true, hc, List.all_eq_true] at h
      exact ih hm (h.2 _ hk)

theorem Opens.inside (h : n.Opens m) : (Site.node m).Inside (.node n) := by
  induction h with
  | here => exact .here
  | child h hm _ ih => exact .part (mem_parts_of_children h hm) ih

end Node

namespace Site.WellPlaced

variable {x : Extents} {site : Site} {n m : Node} {outer : Span}

/-- What is reached from a node are leaves that opening leads to. -/
theorem opens_of_mem_reached (h : site.WellPlaced x) :
    ∀ n, site = node n → ∀ m ∈ n.reached, n.Opens m ∧ m.children? = none := by
  induction h with
  | intro _ _ ih =>
    rintro n rfl m hm
    cases hc : n.children? with
    | none =>
      rw [Node.reached_of_leaf hc, List.mem_singleton] at hm
      subst hm
      exact ⟨.here, hc⟩
    | some ns =>
      rw [Node.reached_of_children hc, List.mem_flatMap] at hm
      obtain ⟨k, hk, hm⟩ := hm
      obtain ⟨ho, hl⟩ := ih (node k) (Node.mem_parts_of_children hc hk) k rfl m hm
      exact ⟨.child hc hk ho, hl⟩

theorem span_within_of_mem_reached (h : (node n).WellPlaced x)
    (ho : (x.place (node n)).Within outer) (hm : m ∈ n.reached) : m.span.Within outer := by
  obtain ⟨hopens, hleaf⟩ := h.opens_of_mem_reached n rfl m hm
  rw [← x.place_of_leaf hleaf]
  exact within_of_inside hopens.inside h ho

/-- Leaves stand to each other as the nodes do that are opened on the way to them. -/
theorem pairwise_reached {R : Span → Span → Prop} (hR : Span.Hereditary R) (h : site.WellPlaced x) :
    ∀ n, site = node n →
      (∀ m ns, n.Opens m → m.children? = some ns →
        (ns.map fun k => x.place (node k)).Pairwise R) →
      n.reached.Pairwise fun a b => R a.span b.span := by
  induction h with
  | intro holds parts ih =>
    rintro n rfl hn
    cases hc : n.children? with
    | none =>
      rw [Node.reached_of_leaf hc]
      exact List.pairwise_singleton ..
    | some ns =>
      have hmem (k : Node) (hk : k ∈ ns) := Node.mem_parts_of_children hc hk
      have hin (k : Node) (hk : k ∈ ns) : ∀ a ∈ k.reached, a.span.Within (x.place (node k)) := by
        intro a ha
        have hw := holds.within _ (List.mem_map_of_mem (hmem k hk))
        have hs := Span.within_self hw.start_le_stop
        exact (parts _ (hmem k hk)).span_within_of_mem_reached hs ha
      rw [Node.reached_of_children hc, List.pairwise_flatMap]
      constructor
      · intro k hk
        exact ih (node k) (hmem k hk) k rfl fun m ms ho hms => hn m ms (.child hc hk ho) hms
      · apply (List.pairwise_map.mp (hn n ns .here hc)).imp_of_mem
        intro k l hk hl hkl a ha b hb
        exact hR hkl (hin k hk a ha) (hin l hl b hb)

private theorem pairwise_inText (h : (node n).WellPlaced x) {ns : List Node} (hc : n.children? = some ns) :
    (n.inText.map fun k => x.place (node k)).Pairwise Span.Before := by
  have hp := h.pairwise_parts
  rw [Node.parts_of_children hc, List.map_map] at hp
  exact hp

/-- The leaves reached from a node do not overlap. -/
theorem pairwise_apart_reached (h : (node n).WellPlaced x) :
    n.reached.Pairwise fun a b => a.span.Apart b.span := by
  refine h.pairwise_reached Span.hereditary_apart n rfl fun m ns ho hc => ?_
  have hp := ((Node.children_perm_inText hc).map fun k => x.place (node k)).symm
  refine (hp.pairwise_iff Span.Apart.symm).mp ?_
  exact ((of_inside ho.inside h).pairwise_inText hc).imp Or.inl

/-- They come in the order of the text when no switch is opened that has a test behind statements. -/
theorem pairwise_before_reached (h : (node n).WellPlaced x)
    (hn : ∀ span subject cases, n.Opens (.stmt (.switch span subject cases)) → TestsFirst cases) :
    n.reached.Pairwise fun a b => a.span.Before b.span := by
  refine h.pairwise_reached Span.hereditary_before n rfl fun m ns ho hc => ?_
  have he : ns = m.inText := by
    apply Node.children_eq_inText hc
    rintro span subject cases rfl
    exact hn span subject cases ho
  rw [he]
  exact (of_inside ho.inside h).pairwise_inText hc

end Site.WellPlaced

end SideEffectLint
