import Mathlib.Logic.Equiv.Basic
import SideEffectLint.Proofs.Relabeling

/-! Functions with other names of variables. When no two names become one, the lint gives what it
gave, with the new names of the parameters: names of variables matter only in so far as they are
bound by the parameters or not, and names of properties and methods are none of them. -/

namespace SideEffectLint

variable {r : Relabeling}

private theorem Expr.span_relabel (e : Expr) : (e.relabel r).span = r.place e.span := by
  cases e <;> rfl

/-- With places kept, so is the fault of a pattern. -/
theorem Pattern.fault?_relabel_of_place (hr : r.place = id) (p : Pattern) :
    (p.relabel r).fault? = p.fault? := by
  cases p with
  | expr e => rw [relabel, fault?, fault?, e.span_relabel, hr, id_eq]
  | invalid span => rw [relabel, fault?, fault?, hr, id_eq]
  | _ => rfl

private theorem Node.fault?_relabel_of_place (hr : r.place = id) (n : Node) :
    (n.relabel r).fault? = n.fault? := by
  cases n with
  | stmt s => rfl
  | expr e =>
    cases e with
    | invalid span => rw [relabel, Expr.relabel, fault?, fault?, hr, id_eq]
    | _ => rfl

def Finding.rename (r : String → String) : Finding → Finding
  | parameterMutation line parameter f => parameterMutation line (r parameter) f
  | blacklistedCall line method f => blacklistedCall line method f

namespace FoundFunction

/-- Renames by `r` the variables that the parameters bind and those that the body uses. Variables
that default values use, or that are bound inside of the body, are renamed by `others`. -/
def rename (r others : String → String) (f : FoundFunction) : FoundFunction :=
  ⟨f.name, patternsRelabel ⟨id, others, r⟩ f.params, f.span, f.body.relabel ⟨id, r, others⟩⟩

variable (r others : String → String) (f : FoundFunction) (blacklist : Blacklist) (lines : LineMap)

private theorem fault?_rename : (f.rename r others).fault? = f.fault? := by
  have hp : Pattern.fault? ∘ Pattern.relabel ⟨id, others, r⟩ = Pattern.fault? :=
    funext (Pattern.fault?_relabel_of_place rfl)
  have hn : Node.fault? ∘ Node.relabel ⟨id, r, others⟩ = Node.fault? :=
    funext (Node.fault?_relabel_of_place rfl)
  rw [fault?, fault?, rename, patternPieces_relabel, Body.reached_relabel, List.findSome?_map,
    List.findSome?_map, hp, hn]

/-- Neither names in default values nor names bound in the body have a part in what is seen. -/
theorem sightings_rename_eq :
    (f.rename r others).sightings blacklist = (f.relabel ⟨id, r, r⟩).sightings blacklist := by
  have hp : ParameterSet.declaredBy (patternsRelabel ⟨id, others, r⟩ f.params) =
      ParameterSet.declaredBy (patternsRelabel ⟨id, r, r⟩ f.params) := by
    have h := declaredBy_relabel (r := ⟨id, others, r⟩) f.params
    have h' := declaredBy_relabel (r := ⟨id, r, r⟩) f.params
    exact congrArg ParameterSet.mk (h.trans h'.symm)
  have hn : Node.sighting? ∘ Node.relabel ⟨id, r, others⟩ =
      Node.sighting? ∘ Node.relabel ⟨id, r, r⟩ := by
    have hs : Sighting.relabel ⟨id, r, others⟩ = Sighting.relabel ⟨id, r, r⟩ := by
      funext s
      cases s <;> rfl
    funext n
    rw [Function.comp_apply, Function.comp_apply, n.sighting?_relabel, n.sighting?_relabel, hs]
  rw [sightings, sightings, rename, relabel, hp, Body.reached_relabel, Body.reached_relabel,
    List.filterMap_map, List.filterMap_map, hn]

variable {r}

/-- A function is linted alike under other names: it fails with the fault it had, or gives the
findings it had, each parameter by its new name. -/
theorem lint_rename (hr : Function.Injective r) :
    (f.rename r others).lint blacklist lines =
      (f.lint blacklist lines).map (List.map (Finding.rename r)) := by
  rw [lint_eq, lint_eq, fault?_rename, sightings_rename_eq, sightings_relabel hr rfl]
  cases f.fault? with
  | some fault => rfl
  | none =>
    refine congrArg Except.ok ?_
    rw [List.map_map, List.map_map]
    apply List.map_congr_left
    intro s _
    cases s <;> rfl

/-- `function f({ key: x = z }, y) { x.y = 1; y.push(x); }` with two names for its variables. -/
private def sample (x y : String) : FoundFunction :=
  ⟨some "f", [.object ⟨12, 26⟩ [.keyValue (.named ⟨14, 17⟩ "key")
      (.withDefault ⟨19, 24⟩ (.ident ⟨19, 20⟩ x none) (.ident ⟨23, 24⟩ "z"))] none,
    .ident ⟨28, 29⟩ y none], ⟨1, 54⟩, .block ⟨31, 54⟩
    [.expr ⟨33, 41⟩ (.assign ⟨33, 40⟩ "="
        (.expr (.member ⟨33, 36⟩ (.ident ⟨33, 34⟩ x) (.named ⟨35, 36⟩ "y")))
        (.compound ⟨39, 40⟩ .literal [])),
      .expr ⟨42, 52⟩ (.call ⟨42, 51⟩ (.member ⟨42, 48⟩ (.ident ⟨42, 43⟩ y)
        (.named ⟨44, 48⟩ "push")) [.plain (.ident ⟨49, 50⟩ x)])]⟩

/-- Names may be exchanged, and be those of properties. -/
theorem lint_rename_swap :
    let r := Equiv.swap "x" "y"
    Function.Injective r ∧ (sample "x" "y").rename r id = sample "y" "x" ∧
      (sample "x" "y").lint .arrayMutators ⟨[]⟩ = .ok [.parameterMutation 1 "x" ⟨some "f", 1⟩,
        .blacklistedCall 1 "push" ⟨some "f", 1⟩] ∧
      (sample "y" "x").lint .arrayMutators ⟨[]⟩ = .ok [.parameterMutation 1 "y" ⟨some "f", 1⟩,
        .blacklistedCall 1 "push" ⟨some "f", 1⟩] := by
  intro r
  have hr : Function.Injective r := r.injective
  have hs : (sample "x" "y").rename r id = sample "y" "x" := rfl
  have hl : (sample "x" "y").lint .arrayMutators ⟨[]⟩ =
      .ok [.parameterMutation 1 "x" ⟨some "f", 1⟩, .blacklistedCall 1 "push" ⟨some "f", 1⟩] := by
    rw [lint_eq]
    rfl
  have h := lint_rename id (sample "x" "y") .arrayMutators ⟨[]⟩ hr
  rw [hs, hl] at h
  exact ⟨hr, hs, hl, h⟩

end FoundFunction

end SideEffectLint
