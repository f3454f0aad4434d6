import DesignTokens.Failure
import DesignTokens.Files.FileSystem

/-!
# File access

File operations as steps of a computation that may fail.

## Main definitions

- `attempt` — a file operation whose fault is a failure
- `known` — an outcome that needs no file operation
- `writeWithParents` — a file together with the directories above it
-/

namespace DesignTokens

variable {m : Type → Type} [Monad m] [FileSystem m]

def attempt {α : Type} (operation : m (Except FileFault α)) : ExceptT Failure m α :=
  ExceptT.mk do pure ((← operation).mapError .ofFault)

def known {α : Type} (outcome : Except Failure α) : ExceptT Failure m α :=
  ExceptT.mk (pure outcome)

def writeWithParents (path : Path) (content : String) : m (Except FileFault Unit) := do
  match ← makeDirectories path.parent with
  | .ok _ => writeText path content
  | .error fault => pure (.error fault)

end DesignTokens
