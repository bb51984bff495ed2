import Workflows.Error
import Workflows.Definition.Basic

/-!
# The loop stack

Loop nodes open frames on a stack of bounded depth.  A frame at position `p` has the nesting level `p`.

* `LoopStack.enter?`, `exit`, `current?`, `tick`: the operations
-/

namespace Workflows

/-- An open loop. -/
structure LoopFrame where
  loopId : String
  kind : NodeKind
  /-- 0 for the outermost loop -/
  nestingLevel : Nat
  iteration : Nat
  deriving DecidableEq, Repr

/-- The open loops, the innermost first. -/
structure LoopStack where
  maxDepth : Nat
  frames : List LoopFrame := []
  deriving DecidableEq, Repr

namespace LoopStack

def depth (s : LoopStack) : Nat := s.frames.length

def current? (s : LoopStack) : Option LoopFrame := s.frames.head?

/-- one more open loop, unless the stack is full -/
def enter? (s : LoopStack) (loopId : String) (kind : NodeKind) : Except NodeError (LoopFrame × LoopStack) :=
  if s.depth < s.maxDepth then
    let frame : LoopFrame := ⟨loopId, kind, s.depth, 0⟩
    .ok (frame, { s with frames := frame :: s.frames })
  else .error (.loopDepthExceeded s.maxDepth)

/-- the stack without its innermost loop -/
def exit (s : LoopStack) : LoopStack := { s with frames := s.frames.tail }

/-- the next iteration of the innermost loop -/
def tick (s : LoopStack) : LoopStack :=
  match s.frames with
  | [] => s
  | f :: fs => { s with frames := { f with iteration := f.iteration + 1 } :: fs }

end LoopStack
end Workflows
