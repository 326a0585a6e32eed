import QuotePress.Proofs.Template.Reading
import QuotePress.Template.Render

/-! # Lists of nodes and the lists inside of them -/
namespace QuotePress.Node

/-- Induction over nodes from the last to the first, with the body of a block before what follows
the block. -/
@[elab_as_elim]
theorem forest_induction {motive : List Node → Prop} (nil : motive [])
    (text : ∀ run rest, motive rest → motive (.text run :: rest))
    (substitution : ∀ name rest, motive rest → motive (.variable name :: rest))
    (block : ∀ kind name body rest, motive body → motive rest →
      motive (.block kind name body :: rest))
    (nodes : List Node) : motive nodes :=
  @Node.rec_1 (fun node => ∀ rest, motive rest → motive (node :: rest)) motive text substitution
    (fun kind name body hbody rest => block kind name body rest hbody) nil
    (fun _ rest hnode hrest => hnode rest hrest) nodes

theorem renderAll_append (scope : Scope) (nodes after : List Node) :
    renderAll scope (nodes ++ after) = renderAll scope nodes ++ renderAll scope after := by
  induction nodes with
  | nil => simp [renderAll]
  | cons node nodes ih => simp only [List.cons_append, renderAll, ih, String.append_assoc]

inductive Occurs (node : Node) : List Node → Prop where
  | here {nodes : List Node} (h : node ∈ nodes) : Occurs node nodes
  | inside {nodes body : List Node} {kind : BlockKind} {name : String}
      (hblock : .block kind name body ∈ nodes) (h : Occurs node body) : Occurs node nodes

theorem occurs_nil {node : Node} (h : Occurs node []) : False := by
  cases h with
  | here h => cases h
  | inside hblock h => cases hblock

theorem Occurs.cons {node first : Node} {nodes : List Node} (h : Occurs node nodes) :
    Occurs node (first :: nodes) := by
  cases h with
  | here h => exact .here (List.mem_cons_of_mem _ h)
  | inside hblock h => exact .inside (List.mem_cons_of_mem _ hblock) h

theorem occurs_cons {node first : Node} {nodes : List Node} (h : Occurs node (first :: nodes)) :
    node = first ∨ (∃ kind name body, first = .block kind name body ∧ Occurs node body) ∨
      Occurs node nodes := by
  cases h with
  | here h =>
    rcases List.mem_cons.1 h with rfl | h
    · exact Or.inl rfl
    · exact Or.inr (Or.inr (.here h))
  | inside hblock h =>
    rcases List.mem_cons.1 hblock with rfl | hblock
    · exact Or.inr (Or.inl ⟨_, _, _, rfl, h⟩)
    · exact Or.inr (Or.inr (.inside hblock h))

/-- Texts are not empty and never meet, in the list and in all bodies inside of it. -/
inductive Tidy : List Node → Prop where
  | intro {nodes : List Node} (hne : ∀ run, .text run ∈ nodes → run ≠ "")
      (happart : Apart isText nodes)
      (hbodies : ∀ kind name body, .block kind name body ∈ nodes → Tidy body) : Tidy nodes

theorem mem_consText {run : String} {nodes : List Node} {node : Node}
    (h : node ∈ consText run nodes) : (∃ more, node = .text (run ++ more)) ∨ node ∈ nodes := by
  revert h
  fun_cases consText run nodes with
  | case1 next rest =>
    intro h
    rcases List.mem_cons.1 h with rfl | h
    · exact Or.inl ⟨next, rfl⟩
    · exact Or.inr (List.mem_cons_of_mem _ h)
  | case2 =>
    intro h
    rcases List.mem_cons.1 h with rfl | h
    · exact Or.inl ⟨"", by rw [String.append_empty]⟩
    · exact Or.inr h

theorem mem_splice {nodes after : List Node} {node : Node} (h : node ∈ splice nodes after) :
    node ∈ nodes ∨ node ∈ after ∨
      ∃ run more, .text run ∈ nodes ∧ node = .text (run ++ more) := by
  fun_induction splice nodes after with
  | case1 => exact Or.inr (Or.inl h)
  | case2 run after =>
    rcases mem_consText h with ⟨more, rfl⟩ | h
    · exact Or.inr (Or.inr ⟨run, more, List.mem_cons_self, rfl⟩)
    · exact Or.inr (Or.inl h)
  | case3 first rest after hlast ih =>
    rcases List.mem_cons.1 h with rfl | h
    · exact Or.inl List.mem_cons_self
    rcases ih h with h | h | ⟨run, more, hrun, rfl⟩
    · exact Or.inl (List.mem_cons_of_mem _ h)
    · exact Or.inr (Or.inl h)
    · exact Or.inr (Or.inr ⟨run, more, List.mem_cons_of_mem _ hrun, rfl⟩)

theorem Tidy.nil : Tidy [] :=
  .intro (fun _ h => absurd h (by simp)) .nil (fun _ _ _ h => absurd h (by simp))

theorem Tidy.consText {run : String} {nodes : List Node} (hrun : run ≠ "") (h : Tidy nodes) :
    Tidy (consText run nodes) := by
  cases h with
  | intro hne happart hbodies =>
    constructor
    · intro text hmem
      rcases mem_consText hmem with ⟨more, heq⟩ | hmem
      · cases heq
        simp [hrun]
      · exact hne text hmem
    · exact apart_consText happart
    · intro kind name body hmem
      rcases mem_consText hmem with ⟨more, heq⟩ | hmem
      · cases heq
      · exact hbodies kind name body hmem

theorem Tidy.splice {nodes after : List Node} (h : Tidy nodes) (hafter : Tidy after) :
    Tidy (splice nodes after) := by
  cases h with
  | intro hne happart hbodies =>
    cases hafter with
    | intro hneAfter happartAfter hbodiesAfter =>
      constructor
      · intro text hmem
        rcases mem_splice hmem with hmem | hmem | ⟨run, more, hrun, heq⟩
        · exact hne text hmem
        · exact hneAfter text hmem
        · cases heq
          simp [hne run hrun]
      · exact apart_splice happart happartAfter
      · intro kind name body hmem
        rcases mem_splice hmem with hmem | hmem | ⟨run, more, hrun, heq⟩
        · exact hbodies kind name body hmem
        · exact hbodiesAfter kind name body hmem
        · cases heq

theorem Tidy.cons {node : Node} {nodes : List Node} (h : Tidy nodes)
    (hnode : node.isText = false)
    (hbody : ∀ kind name body, node = .block kind name body → Tidy body) :
    Tidy (node :: nodes) := by
  cases h with
  | intro hne happart hbodies =>
    constructor
    · intro run hmem
      rcases List.mem_cons.1 hmem with rfl | hmem
      · cases hnode
      · exact hne run hmem
    · refine List.isChain_cons.2 ⟨?_, happart⟩
      rintro next - ⟨htext, -⟩
      rw [hnode] at htext
      cases htext
    · intro kind name body hmem
      rcases List.mem_cons.1 hmem with heq | hmem
      · exact hbody kind name body heq.symm
      · exact hbodies kind name body hmem

end QuotePress.Node
