import QuotePress.Proofs.Template.Derivation
import QuotePress.Template.Render

/-! # Rendering in a limited number of levels

A template is rendered by a call for its nodes, and by one more call for the body of every block
that is shown. Such calls stand in one another as the blocks do. -/
namespace QuotePress

namespace Node

def renderBy (within : Scope → List Node → Option String) (scope : Scope) : Node → Option String
  | .text run => some run
  | .variable name => some (((scope.value? name).map Value.toText).getD "")
  | .block .conditional name body => if scope.isTruthy name then within scope body else some ""
  | .block .loop name body =>
    (((scope.list? name).getD []).mapM fun record => within (.record record) body).map String.join

/-- Renders nodes unless that takes more than so many calls in one another. -/
def renderWithin : (levels : Nat) → Scope → List Node → Option String
  | 0, _, _ => none
  | levels + 1, scope, nodes => (nodes.mapM (renderBy (renderWithin levels) scope)).map String.join

theorem mapM_some {α β : Type} {f : α → Option β} {g : α → β} {xs : List α}
    (h : ∀ x ∈ xs, f x = some (g x)) : xs.mapM f = some (xs.map g) := by
  induction xs with
  | nil => rfl
  | cons x xs ih =>
    rw [List.mapM_cons, h x List.mem_cons_self, ih fun y hy => h y (List.mem_cons_of_mem x hy)]
    rfl

theorem renderAll_eq_join (scope : Scope) (nodes : List Node) :
    renderAll scope nodes = String.join (nodes.map (render scope)) := by
  induction nodes with
  | nil => rw [renderAll]; rfl
  | cons node nodes ih => rw [renderAll, ih, List.map_cons, String.join_cons]

theorem depth_le_depthAll {node : Node} {nodes : List Node} (h : node ∈ nodes) :
    node.depth ≤ depthAll nodes := by
  induction nodes with
  | nil => cases h
  | cons first rest ih =>
    rw [depthAll]
    rcases List.mem_cons.1 h with rfl | h
    · exact Nat.le_max_left ..
    · exact Nat.le_trans (ih h) (Nat.le_max_right ..)

theorem renderBy_of_depth {levels : Nat} {within : Scope → List Node → Option String}
    (hwithin : ∀ scope body, depthAll body < levels →
      within scope body = some (renderAll scope body))
    (scope : Scope) {node : Node} (h : node.depth ≤ levels) :
    renderBy within scope node = some (render scope node) := by
  match node, h with
  | .text run, _ => rw [renderBy, render]
  | .variable name, _ => rw [renderBy, render]
  | .block .conditional name body, h =>
    rw [depth] at h
    rw [renderBy, render, hwithin scope body h]
    split <;> rfl
  | .block .loop name body, h =>
    rw [depth] at h
    rw [renderBy, render, mapM_some fun record _ => hwithin (.record record) body h]
    rfl

theorem renderWithin_of_depth {levels : Nat} (scope : Scope) {nodes : List Node}
    (h : depthAll nodes ≤ levels) :
    renderWithin (levels + 1) scope nodes = some (renderAll scope nodes) := by
  induction levels using Nat.strongRecOn generalizing scope nodes with
  | ind levels ih =>
    have hwithin (scope : Scope) (body : List Node) (hbody : depthAll body < levels) :
        renderWithin levels scope body = some (renderAll scope body) := by
      cases levels with
      | zero => cases hbody
      | succ levels => exact ih levels (Nat.lt_succ_self _) scope (Nat.le_of_lt_succ hbody)
    have hnode (node : Node) (hmem : node ∈ nodes) :=
      renderBy_of_depth hwithin scope (Nat.le_trans (depth_le_depthAll hmem) h)
    rw [renderWithin, mapM_some hnode, renderAll_eq_join]
    rfl

end Node

end QuotePress
